import AuthServer.Proofs.Site.Serving
import AuthServer.Proofs.StoredChanges

/-!
# What reaches the session of the host

The endpoints work on the session of the request. A page that ends with a written response, or with
the question to the resource owner, writes it back to the host; an error that is handed back as the
answer itself does not. Where errors are handed back, the host keeps what the loader took away.
-/

namespace AuthServer

open Json Store

variable {σ : Type}

/-! ## Requests with a session -/

namespace ErrorRenderer

theorem render_request {renderer : ErrorRenderer σ} {e : OAuthError} {r : Except Fault Unit}
    {v v' : Visit σ} (h : (renderer.render e).run v = (r, v')) : v'.request = v.request := by
  cases render_cases h <;> rfl

end ErrorRenderer

namespace Server

variable {s : Server σ} {v v' : Visit σ}

theorem recordAt?_eq_of_held {o : TransactionOptions}
    (h : Shelf.session.held o v' = Shelf.session.held o v) (id : String) :
    v'.request.recordAt? o.sessionKey id = v.request.recordAt? o.sessionKey id := by
  have hid : (v'.request.recordAt? o.sessionKey id).map Stored.record =
      (v.request.recordAt? o.sessionKey id).map Stored.record := congrFun h id
  exact Option.map_injective (fun _ _ => Stored.record.inj) hid

theorem Responding.session_eq {complete : Completion σ} {t : Transaction} {r : Except Fault Unit}
    (h : Responding s complete t v r v') : v'.request.session = v.request.session := by
  cases h <;> rfl

theorem Recording.session_eq {r : Except Fault Unit} (h : Recording s v r v') :
    v'.request.session = v.request.session := by
  cases h with
  | refused => rfl
  | decidedBefore => rfl
  | recorded => rw [tally_request]; rfl

theorem decide_session {o : DecisionOptions} {c : DecisionCallbacks σ} {r : Except Fault Unit}
    (h : (s.decide o c).run v = (r, v')) : v'.request.session = v.request.session := by
  obtain ⟨v₁, m, hx, rfl⟩ := counted_cases h
  show v₁.request.session = _
  cases runDecision_cases hx with
  | unrecorded hrec => exact hrec.session_eq
  | answered hrec _ hr => rw [hr.session_eq, arm_session, hrec.session_eq]

theorem redirectError_session {e : OAuthError} {r : Except Fault Unit}
    (h : (s.redirectError e).run v = (r, v')) : v'.request.session = v.request.session := by
  cases redirectError_cases h with
  | absent => rfl
  | handed => exact arm_session s v

/-- There is a session, and its records and the hooks of the response are in order. -/
structure Carrying (s : Server σ) (v : Visit σ) : Prop where
  session : v.request.session.isSome
  tidy : s.Tidy v

theorem Carrying.of_stays (h : s.Carrying v) (hstays : Stays s .session v v')
    (hsession : v'.request.session = v.request.session) : s.Carrying v' :=
  ⟨by rw [hsession]; exact h.session, (hstays h.tidy).1⟩

section Session

variable (hs : s.store = .session)
include hs

theorem remove_session_isSome (id : String) :
    (s.remove id).Keeps fun v => v.request.session.isSome := by
  intro v h
  rw [remove_session hs]
  rcases hsession : v.request.session with _ | session
  · rw [hsession] at h
    cases h
  · rfl

/-- Hooks that are quiet leave the session, and the others remove from it. -/
theorem Carrying.finish {r : Except Fault Unit} (h : s.Carrying v)
    (hrun : Visit.finish.run v = (r, v')) : s.Carrying v' := by
  refine ⟨?_, (finish_moves (k := .session) hs hrun h.tidy).1⟩
  cases Visit.finish_cases hrun with
  | idle => exact h.session
  | ran _ hran =>
    have hkeeps := Visit.runHooks_keeps (P := fun u => u.request.session.isSome) fun hook hmem => by
      rcases h.tidy.2.hooks hook hmem with hquiet | ⟨id, rfl⟩
      · cases hook with
        | removal => cases hquiet
        | host key action =>
          intro u hu
          show (action.run (u.request, u.world.host)).2.1.session.isSome
          rw [hquiet]
          exact hu
      · exact Visit.runHook_removal_keeps (remove_session_isSome hs id)
    exact hkeeps.of_run hran h.session

theorem Carrying.finish_gone {r : Except Fault Unit} {id : String} (h : s.Carrying v)
    (hrun : Visit.finish.run v = (r, v')) (hnone : v.request.recordAt? s.options.sessionKey id = none) :
    v'.request.recordAt? s.options.sessionKey id = none := by
  have hbefore : Shelf.session.held s.options v id = none := by simp [Shelf.held, hnone]
  suffices hafter : Shelf.session.held s.options v' id = none by simpa [Shelf.held] using hafter
  have hmoves := (finish_moves (k := .session) hs hrun h.tidy).2
  cases hdue : v.due with
  | none =>
    rw [hdue] at hmoves
    rw [hmoves, hbefore]
  | some id' =>
    rw [hdue] at hmoves
    rcases hmoves with hcleared | ⟨-, hkept⟩
    · rw [hcleared, Function.update_apply]
      split
      · rfl
      · exact hbefore
    · rw [hkept, hbefore]

theorem loadTransaction_isSome :
    s.loadTransaction.Keeps fun v => v.request.session.isSome := by
  intro v h
  have hload : ∀ {r v₁}, s.load.run v = (r, v₁) → v₁.request.session.isSome := by
    intro r v₁ hrun
    obtain ⟨host, rfl, -⟩ := load_held (k := .session) hs hrun
    exact h
  have hremove : ∀ {id r v₁ v₂}, v₁.request.session.isSome → (s.remove id).run v₁ = (r, v₂) →
      v₂.request.session.isSome := by
    intro id r v₁ v₂ h₁ hrun
    exact (remove_session_isSome hs id).of_run hrun h₁
  rcases hrun : s.loadTransaction.run v with ⟨r, v'⟩
  cases loadTransaction_cases hrun with
  | present => exact h
  | failed _ _ hl => exact (hload hl :)
  | loaded _ _ hl => exact (hload hl :)
  | unstored _ _ hl => exact (hload hl :)
  | removed _ _ hl _ _ hr => exact (hremove (hload hl) hr :)
  | crashed _ _ hl _ _ hr => exact (hremove (hload hl) hr :)

theorem Loading.unloaded {e : Fault} (h : Loading s v (.error e) v') :
    v'.request.transaction = none := by
  have hload : ∀ {r v₁}, s.load.run v = (r, v₁) → v₁.request.transaction = v.request.transaction := by
    intro r v₁ hrun
    obtain ⟨host, rfl, -⟩ := load_held (k := .session) hs hrun
    rfl
  have hremove : ∀ {id r v₁ v₂}, (s.remove id).run v₁ = (r, v₂) →
      v₂.request.transaction = v₁.request.transaction := by
    intro id r v₁ v₂ hrun
    rw [remove_session hs] at hrun
    split at hrun <;> cases hrun <;> rfl
  generalize hr : (Except.error e : Except Fault Unit) = r at h
  cases h with
  | present => cases hr
  | failed _ ht hl => exact ((hload hl).trans ht :)
  | loaded => cases hr
  | unstored _ ht hl => exact ((hload hl).trans ht :)
  | removed _ ht hl _ _ hrun => exact ((hremove hrun).trans ((hload hl).trans ht) :)
  | crashed _ ht hl _ _ hrun => exact ((hremove hrun).trans ((hload hl).trans ht) :)

omit hs in
theorem load_of_deauthorized {id : String} (h : s.deauthorized v = some id) :
    ∃ t v₁, s.load.run v = (.ok t, v₁) ∧ t.id = some id := by
  rcases hload : s.load.run v with ⟨r, v₁⟩
  rcases ht : v.request.transaction with _ | _ <;> rcases r with e | t <;>
    simp only [deauthorized, ht, hload, reduceCtorEq] at h
  split at h
  · exact ⟨t, v₁, rfl, h⟩
  · cases h

/-- What the loader takes away was there. -/
theorem recordAt?_of_deauthorized {id : String} (h : s.deauthorized v = some id) :
    v.request.recordAt? s.options.sessionKey id ≠ none := by
  obtain ⟨t, v₁, hload, hid⟩ := load_of_deauthorized h
  obtain ⟨host, rfl, ⟨e, he⟩ | ⟨_, id', x, ht, hid', -, hheld, -⟩⟩ :=
    load_held (k := .session) hs hload
  · cases he
  · cases ht
    obtain rfl := Option.some.inj (hid.symm.trans hid')
    intro hnone
    rw [Shelf.held, hnone] at hheld
    cases hheld

theorem Suspending.session_isSome {t : Transaction} {r : Except Fault Outcome}
    (h : Suspending s t v r v') (hv : v.request.session.isSome) : v'.request.session.isSome := by
  have hstore : ∀ {r v₁}, (s.storeNew t).run v = (r, v₁) → v₁.request.session.isSome := by
    intro r v₁ hrun
    obtain ⟨host, ⟨rfl, -⟩ | ⟨session, record, -, -, -, rfl⟩⟩ := storeNew_session_cases hs hrun
    · exact hv
    · rfl
  cases h with
  | stored hrun => rw [tally_request]; exact (hstore hrun :)
  | failed hrun => exact (hstore hrun :)
  | crashed hrun => exact (hstore hrun :)

/-- Without an immediate decision nothing but a suspension touches the session. -/
theorem authorize_isSome {c : AuthorizationCallbacks σ} (hc : c.immediate = none) :
    (s.authorize c).Keeps fun v => v.request.session.isSome := by
  intro v h
  rcases hrun : (s.authorize c).run v with ⟨r, v'⟩
  obtain ⟨v₁, m, hx, rfl⟩ := counted_cases hrun
  show v₁.request.session.isSome
  cases runAuthorization_cases hx with
  | refused hn =>
    obtain ⟨host, rfl⟩ := (newTransaction_cases hn).withHost
    exact h
  | invalid hn hv =>
    obtain ⟨host, rfl⟩ := (newTransaction_cases hn).withHost
    cases hv <;> exact h
  | asked hn hv _ hsuspend =>
    obtain ⟨host, rfl⟩ := (newTransaction_cases hn).withHost
    cases hv with
    | passed => exact hsuspend.session_isSome hs h
  | tried _ _ hi => rw [hc] at hi; cases hi

end Session

end Server

/-! ## Host and request -/

namespace Site

theorem value?_rereadMembers (members : Params) (id : String) :
    Entries.value? (Value.reread.rereadMembers members) id = (members.value? id).map Value.reread := by
  rw [rereadMembers_eq_map]
  induction members with
  | nil => rfl
  | cons m rest ih =>
    obtain ⟨k, v⟩ := m
    by_cases hk : k = id
    · simp [Entries.value?, hk]
    · simp only [List.map_cons, Entries.value?, if_neg hk]
      exact ih

/-- The record that the host keeps under an id. -/
def HostSession.recordAt? (session : HostSession) (key id : String) : Option Value :=
  (pending? session key).bind (·.value? id)

theorem HostSession.pending?_load (session : HostSession) (key : String) (r : Request) :
    (session.load key r).session.bind (pending? · key) = pending? session key := by
  unfold load pending?
  rcases hvalue : session.value? key with _ | v
  · rfl
  · simp [Entries.value?]

theorem HostSession.recordAt?_load (session : HostSession) (key : String) (r : Request) (id : String) :
    (session.load key r).recordAt? key id = session.recordAt? key id := by
  rw [Request.recordAt?, pending?_load, recordAt?]

/-- What is saved is what the request has, read back. -/
theorem HostSession.recordAt?_save (session : HostSession) (key : String) {r : Request}
    (hr : r.session.isSome) (id : String) :
    (session.save key r).recordAt? key id = (r.recordAt? key id).map Value.reread := by
  obtain ⟨held, hheld⟩ := Option.isSome_iff_exists.1 hr
  unfold save Request.recordAt?
  rw [hheld]
  simp only [Option.bind_some]
  split
  · rename_i e es hvalue
    have hpending : pending? held key = some (e :: es) := by
      rw [pending?, hvalue]
      rfl
    rw [hpending, recordAt?, insert, Value.reread, pending?_put]
    exact value?_rereadMembers (e :: es) id
  · rename_i hvalue
    have hnone : (pending? held key).bind (·.value? id) = none := by
      unfold pending?
      rcases hv : held.value? key with _ | v
      · rfl
      · cases v with
        | obj members =>
          cases members with
          | nil => rfl
          | cons e es => exact absurd hv (hvalue e es)
        | _ => rfl
    rw [hnone, recordAt?, pending?, Entries.value?_remove, if_pos rfl]
    rfl

namespace App

variable {a : App} {w : Work} {h : Turn}

/-- The host has the records of the request. -/
def Level (a : App) (w : Work) : Prop :=
  ∀ id, w.session.recordAt? a.sessionKey id = w.visit.request.recordAt? a.sessionKey id

/-- The host has the records of the request, as they are or read back: the same ids at any rate. -/
def Mirrors (a : App) (session : HostSession) (r : Request) : Prop :=
  ∀ id, session.recordAt? a.sessionKey id = r.recordAt? a.sessionKey id ∨
    session.recordAt? a.sessionKey id = (r.recordAt? a.sessionKey id).map Value.reread

/-- The page ends with the two sessions alike, and what is gone from the request stays gone. -/
structure Settles (a : App) (x : Step Work HttpAnswer) (w : Work) : Prop where
  mirrors : a.Mirrors (x.run w).2.session (x.run w).2.visit.request
  gone : ∀ id, w.visit.request.recordAt? a.sessionKey id = none →
    (x.run w).2.visit.request.recordAt? a.sessionKey id = none

/-- The rest of a page, after a step that left the records of the request. -/
theorem Settles.of_run {x y : Step Work HttpAnswer} {w' : Work} (h : a.Settles y w')
    (hrun : x.run w = y.run w')
    (hsame : ∀ id, w'.visit.request.recordAt? a.sessionKey id = w.visit.request.recordAt? a.sessionKey id) :
    a.Settles x w := by
  refine ⟨?_, fun id hnone => ?_⟩ <;> rw [hrun]
  · exact h.mirrors
  · exact h.gone id ((hsame id).trans hnone)

theorem Level.mirrors (hw : a.Level w) : a.Mirrors w.session w.visit.request := fun id => .inl (hw id)

theorem save_mirrors (hw : w.visit.request.session.isSome) :
    a.Mirrors (w.session.save a.sessionKey w.visit.request) w.visit.request :=
  fun id => .inr (HostSession.recordAt?_save _ _ hw id)

theorem orderly_settled (s : Server Issuer) : Response.Settled fun r => r.Orderly s :=
  fun _ _ hhooks _ h => h.of_hooks hhooks

theorem finish_work {r : Except Fault Unit} {v : Visit Issuer}
    (hrun : Visit.finish.run w.visit = (r, v)) :
    (a.finish.run w).2 = ⟨v, w.session.save a.sessionKey v.request⟩ := by
  have hv : (send.run w.visit).2 = v := (run_send w.visit).2.trans (by rw [hrun])
  unfold App.finish
  rw [Step.run_bind, onVisit, Step.run_within, (run_send w.visit).1, hv]
  rfl

theorem finish_settles (ha : a.Installed) (hs : a.server.store = .session)
    (hw : a.server.Carrying w.visit) : a.Settles a.finish w := by
  rcases hrun : Visit.finish.run w.visit with ⟨r, v⟩
  refine ⟨?_, fun id hnone => ?_⟩ <;> rw [finish_work hrun]
  · exact save_mirrors (w := ⟨v, w.session⟩) (hw.finish hs hrun).session
  · rw [← sessionKey_eq ha] at hnone ⊢
    exact hw.finish_gone hs hrun hnone

section Telling

variable {e : OAuthError} {v : Visit Issuer}

theorem render_ok {renderer : ErrorRenderer Issuer}
    (hrun : (renderer.render e).run w.visit = (.ok (), v)) :
    (a.render renderer e).run w = a.finish.run ⟨v, w.session⟩ := by
  unfold App.render
  rw [Step.run_bind, run_attempt_onVisit hrun]

theorem render_error {renderer : ErrorRenderer Issuer} {f : Fault}
    (hrun : (renderer.render e).run w.visit = (.error f, v)) :
    (a.render renderer e).run w = (.ok (.ofError f.report), ⟨v, w.session⟩) := by
  unfold App.render
  rw [Step.run_bind, run_attempt_onVisit hrun]
  rfl

theorem fail_ok (hrun : (a.server.redirectError e).run w.visit = (.ok (), v)) :
    (a.fail e).run w = a.finish.run ⟨v, w.session⟩ := by
  unfold App.fail
  rw [Step.run_bind, run_attempt_onVisit hrun]

theorem fail_error {f : Fault} (hrun : (a.server.redirectError e).run w.visit = (.error f, v)) :
    (a.fail e).run w = (a.render a.errors f.report).run ⟨v, w.session⟩ := by
  unfold App.fail
  rw [Step.run_bind, run_attempt_onVisit hrun]

end Telling

/-- An error that is handed back is not saved, so the two must have been alike before. -/
theorem render_settles (ha : a.Installed) (hs : a.server.store = .session)
    (hw : a.server.Carrying w.visit)
    (hlevel : a.Level w ∨ a.config.errorOptions.mode = .direct) (e : OAuthError) :
    a.Settles (a.render a.errors e) w := by
  rcases hrun : (a.errors.render e).run w.visit with ⟨r, v⟩
  have hrequest := ErrorRenderer.render_request hrun
  have hcarrying : a.server.Carrying v := by
    refine hw.of_stays (Server.render_stays (fun m hm t p => ?_) hrun) (by rw [hrequest])
    exact ResponseModes.standard_builtIn.render_keeps
      ((orderly_settled a.server).redirectable t.redirectUri) hm p
  cases r with
  | ok _ => exact (finish_settles ha hs hcarrying).of_run (render_ok hrun) fun id => by rw [hrequest]
  | error f =>
    have hlevel' : a.Level w := by
      refine hlevel.resolve_right fun hdirect => ?_
      have hmode : a.errors.options.mode = .direct := hdirect
      have hcases := ErrorRenderer.render_cases hrun
      generalize hr : (Except.error f : Except Fault Unit) = r at hcases
      cases hcases with
      | direct => cases hr
      | absent hindirect => rw [hmode] at hindirect; cases hindirect
      | indirect hindirect => rw [hmode] at hindirect; cases hindirect
    refine ⟨?_, ?_⟩ <;> rw [render_error hrun] <;> simp only [hrequest]
    · exact hlevel'.mirrors
    · exact fun _ hnone => hnone

theorem fail_settles (ha : a.Installed) (hs : a.server.store = .session)
    (hw : a.server.Carrying w.visit)
    (hlevel : a.Level w ∨ a.config.errorOptions.mode = .direct) (e : OAuthError) :
    a.Settles (a.fail e) w := by
  rcases hrun : (a.server.redirectError e).run w.visit with ⟨r, v⟩
  have hsession := Server.redirectError_session hrun
  have hsame : ∀ id, v.request.recordAt? a.sessionKey id = w.visit.request.recordAt? a.sessionKey id :=
    fun id => by rw [Request.recordAt?, Request.recordAt?, hsession]
  have hcarrying : a.server.Carrying v :=
    hw.of_stays (Server.redirectError_stays
      (ha.bundled.keeps ha.bundled_exchanges (orderly_settled a.server)) hrun) hsession
  cases r with
  | ok _ => exact (finish_settles ha hs hcarrying).of_run (fail_ok hrun) hsame
  | error f =>
    have hlevel' : a.Level w → a.Level ⟨v, w.session⟩ := fun hlevel id =>
      (hlevel id).trans (hsame id).symm
    exact (render_settles ha hs hcarrying (hlevel.imp_left hlevel') f.report).of_run (fail_error hrun) hsame

/-- Without a transaction there is nobody to tell, and the error becomes the answer. -/
theorem fail_absent (hmode : a.config.errorOptions.mode = .indirect)
    (hnone : w.visit.request.transaction = none) (e : OAuthError) :
    (a.fail e).run w = (.ok (.ofError e), w) := by
  have hredirect : (a.server.redirectError e).run w.visit = (.error (.error e), w.visit) := by
    rcases hrun : (a.server.redirectError e).run w.visit with ⟨r, v⟩
    cases Server.redirectError_cases hrun with
    | absent => rfl
    | handed ht => rw [hnone] at ht; cases ht
  have hrender : (a.errors.render e).run w.visit = (.error (.error e), w.visit) := by
    have hmode' : a.errors.options.mode = .indirect := hmode
    rcases hrun : (a.errors.render e).run w.visit with ⟨r, v⟩
    cases ErrorRenderer.render_cases hrun with
    | direct hdirect => rw [hmode'] at hdirect; cases hdirect
    | absent => rfl
    | indirect _ ht => rw [hnone] at ht; cases ht
  rw [fail_error hredirect]
  exact render_error hrender

/-! ## The pages -/

/-- The request as the page left it. -/
def requestAfter (a : App) (h : Turn) : Request := ((a.route h.request).run h.work).2.visit.request

theorem sessionAfter_eq : a.sessionAfter h = ((a.route h.request).run h.work).2.session := rfl

/-- The records that the host had for a request do not repeat an id. -/
def Distinct (a : App) (session : HostSession) : Prop :=
  ∀ records, pending? session a.sessionKey = some records → (Entries.keys records).Nodup

/-- The loader finds a transaction under the id, and its client is gone. -/
structure Forsakes (a : App) (h : Turn) (request : Request) (id : String) : Prop where
  path : h.request.path = "/oauth/decision"
  method : h.request.method = "POST"
  deauthorized : a.server.deauthorized (a.arrival h request) = some id

theorem arrival_recordAt? (request : Request) (id : String) :
    (a.arrival h request).request.recordAt? a.sessionKey id = h.session.recordAt? a.sessionKey id :=
  HostSession.recordAt?_load h.session a.sessionKey request id

theorem arrival_level (request : Request) : a.Level ⟨a.arrival h request, h.session⟩ :=
  fun id => (arrival_recordAt? request id).symm

section Pages

variable (ha : a.Installed) (hs : a.server.store = .session)
include ha

theorem arrival_carrying (hdistinct : a.Distinct h.session) (request : Request) :
    a.server.Carrying (a.arrival h request) := by
  refine ⟨rfl, fun session records hsession hrecords => ?_, Response.orderly_of_nil rfl⟩
  refine hdistinct records ?_
  rw [← HostSession.pending?_load h.session a.sessionKey request,
    show (h.session.load a.sessionKey request).session = some session from hsession,
    ← sessionKey_eq ha]
  exact hrecords

include hs

theorem authorize_mirrors (hdistinct : a.Distinct h.session) {request : Request}
    (hread : h.request.read = .ok request) :
    a.Mirrors ((a.authorize h.request).run h.work).2.session
      ((a.authorize h.request).run h.work).2.visit.request := by
  have harrival := arrival_carrying ha hdistinct request
  rcases hrun : (a.server.authorize ⟨a.clients.validate, none, .none⟩).run (a.arrival h request)
    with ⟨r, v⟩
  have hstoring := Server.authorize_storing (k := .session)
    (ha.bundled.keeps ha.bundled_exchanges (orderly_settled a.server)) hs hrun
  have hsession : v.request.session.isSome :=
    (Server.authorize_isSome hs rfl).of_run hrun harrival.session
  unfold App.authorize
  rw [withRequest_run hread]
  rcases r with f | _ | _
  · rw [andThen_error hrun]
    cases hstoring with
    | kept _ hstays =>
      obtain ⟨htidy, hheld⟩ := hstays harrival.tidy
      have hlevel : a.Level ⟨v, h.session⟩ := by
        intro id
        rw [arrival_level request id, ← sessionKey_eq ha]
        exact (Server.recordAt?_eq_of_held hheld id).symm
      exact (fail_settles ha hs (w := ⟨v, h.session⟩) ⟨hsession, htidy⟩ (.inl hlevel) f.report).mirrors
  · rw [andThen_ok hrun]
    exact save_mirrors (w := ⟨v, h.session⟩) hsession
  · rw [andThen_ok hrun]
    cases hstoring with
    | kept _ hstays =>
      exact (finish_settles ha hs (w := ⟨v, h.session⟩) ⟨hsession, (hstays harrival.tidy).1⟩).mirrors

/-- Where the loader takes nothing away, or errors are written. -/
theorem decision_mirrors (hdistinct : a.Distinct h.session) {request : Request}
    (hread : h.request.read = .ok request)
    (hkept : a.server.deauthorized (a.arrival h request) = none ∨
      a.config.errorOptions.mode = .direct) :
    a.Mirrors ((a.decision h.request).run h.work).2.session
      ((a.decision h.request).run h.work).2.visit.request := by
  have harrival := arrival_carrying ha hdistinct request
  rcases hload : a.server.loadTransaction.run (a.arrival h request) with ⟨r, v⟩
  have hmoves := (Server.loadTransaction_cases hload).moves (k := .session) hs
  have hsession : v.request.session.isSome :=
    (Server.loadTransaction_isSome hs).of_run hload harrival.session
  unfold App.decision
  rw [withRequest_run hread]
  rcases hmoves with ⟨-, hstays⟩ | ⟨id, hid, hmoves, hr⟩
  · obtain ⟨htidy, hheld⟩ := hstays harrival.tidy
    have hlevel : a.Level ⟨v, h.session⟩ := by
      intro id
      rw [arrival_level request id, ← sessionKey_eq ha]
      exact (Server.recordAt?_eq_of_held hheld id).symm
    cases r with
    | error f =>
      rw [andThen_error hload]
      exact (fail_settles ha hs (w := ⟨v, h.session⟩) ⟨hsession, htidy⟩ (.inl hlevel) f.report).mirrors
    | ok _ =>
      rw [andThen_ok hload]
      rcases hrun : (a.server.decide a.config.decision ⟨none, .none⟩).run v with ⟨r, v₂⟩
      have hsame := Server.decide_session hrun
      have hcarrying : a.server.Carrying v₂ := Server.Carrying.of_stays ⟨hsession, htidy⟩
        (Server.decide_stays (ha.bundled.keeps ha.bundled_exchanges (orderly_settled a.server)) hrun) hsame
      cases r with
      | error f =>
        rw [andThen_error hrun]
        have hlevel₂ : a.Level ⟨v₂, h.session⟩ := by
          intro id
          rw [hlevel id, Request.recordAt?, Request.recordAt?, hsame]
        exact (fail_settles ha hs (w := ⟨v₂, h.session⟩) hcarrying (.inl hlevel₂) f.report).mirrors
      | ok _ =>
        rw [andThen_ok hrun]
        exact (finish_settles ha hs (w := ⟨v₂, h.session⟩) hcarrying).mirrors
  · obtain rfl := hr harrival.tidy
    rw [andThen_error hload]
    have hdirect := hkept.resolve_left (by rw [hid]; exact Option.some_ne_none id)
    exact (fail_settles ha hs (w := ⟨v, h.session⟩) ⟨hsession, (hmoves harrival.tidy).1⟩ (.inr hdirect)
      _).mirrors

/-- What the loader takes away is gone from the request. Where errors are handed back, the host
does not hear of it. -/
theorem decision_forsaken (hdistinct : a.Distinct h.session) {request : Request} {id : String}
    (hread : h.request.read = .ok request)
    (hid : a.server.deauthorized (a.arrival h request) = some id) :
    ((a.decision h.request).run h.work).2.visit.request.recordAt? a.sessionKey id = none ∧
      (a.config.errorOptions.mode = .indirect →
        ((a.decision h.request).run h.work).2.session = h.session) := by
  have harrival := arrival_carrying ha hdistinct request
  rcases hload : a.server.loadTransaction.run (a.arrival h request) with ⟨r, v⟩
  have hcases := Server.loadTransaction_cases hload
  obtain ⟨hnone, -⟩ | ⟨id', hid', hmoves, hr⟩ := hcases.moves (k := .session) hs
  · rw [hid] at hnone
    cases hnone
  obtain rfl : id' = id := Option.some.inj (hid'.symm.trans hid)
  obtain rfl := hr harrival.tidy
  obtain ⟨htidy, hheld⟩ := hmoves harrival.tidy
  have hgone : v.request.recordAt? a.sessionKey id' = none := by
    have hcleared : Shelf.session.held a.server.options v id' = none := by
      rw [hheld]
      exact if_pos rfl
    rw [← sessionKey_eq ha]
    simpa [Shelf.held] using hcleared
  have hsession : v.request.session.isSome :=
    (Server.loadTransaction_isSome hs).of_run hload harrival.session
  unfold App.decision
  rw [withRequest_run hread, andThen_error hload]
  cases hmode : a.config.errorOptions.mode with
  | direct =>
    have hsettles := fail_settles ha hs (w := ⟨v, h.session⟩) ⟨hsession, htidy⟩ (.inr hmode)
      (Fault.error OAuthError.unauthorizedClient).report
    exact ⟨hsettles.gone id' hgone, fun hindirect => by cases hindirect⟩
  | indirect =>
    rw [fail_absent (w := ⟨v, h.session⟩) hmode (hcases.unloaded hs)]
    exact ⟨hgone, fun _ => rfl⟩

end Pages

/-- A request that cannot be read is answered without a session. -/
theorem unread_sessions {e : OAuthError} (hread : h.request.read = .error e)
    (next : Step Work HttpAnswer) :
    ((a.withRequest h.request next).run h.work).2.session = h.session ∧
      ((a.withRequest h.request next).run h.work).2.visit.request.session = none := by
  rcases hrun : (a.errors.render e).run h.work.visit with ⟨r, v⟩
  have hrequest := ErrorRenderer.render_request hrun
  have hhooks : v.response.hooks = [] := by
    cases ErrorRenderer.render_cases hrun with
    | direct => exact ErrorRenderer.hooks_writeDirect e _
    | absent => rfl
    | indirect _ ht => cases ht
  unfold withRequest
  rw [hread]
  unfold App.render
  rw [Step.run_bind, run_attempt_onVisit hrun]
  cases r with
  | error f => exact ⟨rfl, by show v.request.session = none; rw [hrequest]; rfl⟩
  | ok _ =>
    rcases hfinish : Visit.finish.run v with ⟨r, v'⟩
    have hsame : v'.request = v.request := by
      cases Visit.finish_cases hfinish with
      | idle => rfl
      | ran _ hran =>
        rw [hhooks] at hran
        cases hran
        rfl
    have hwork := finish_work (a := a) (w := ⟨v, h.session⟩) hfinish
    have hnone : v'.request.session = none := by
      rw [hsame, hrequest]
      rfl
    refine ⟨?_, ?_⟩
    · show (a.finish.run ⟨v, h.session⟩).2.session = _
      rw [hwork, HostSession.save, hnone]
    · show (a.finish.run ⟨v, h.session⟩).2.visit.request.session = _
      rw [hwork, hnone]

theorem store_of_ofConfig {config : Config} {clients : Directory}
    (hconfig : App.ofConfig config clients = .ok a) (hkind : config.storeKind = .ok .session) :
    a.server.store = .session := by
  unfold App.ofConfig Store.ofConfig at hconfig
  rw [hkind] at hconfig
  cases hconfig
  rfl

theorem config_of_ofConfig {config : Config} {clients : Directory}
    (hconfig : App.ofConfig config clients = .ok a) : a.config = config := by
  unfold App.ofConfig at hconfig
  rcases hstore : (Store.ofConfig 0 config : Except OAuthError (Store Issuer)) with e | store <;>
    rw [hstore] at hconfig <;> cases hconfig
  rfl

/-- What is removed from the session of the request or added to it is removed from the session of
the host or added to it, unless errors are handed back and the loader took away a transaction whose
client is gone: then the host keeps that transaction. A request that cannot be read has no session. -/
theorem session_mirrored {config : Config} {clients : List Client}
    (hconfig : App.ofConfig config (.ofList clients) = .ok a) (hkind : config.storeKind = .ok .session)
    (hpage : (h.request.path = "/oauth/authorize" ∧ h.request.method = "GET") ∨
      (h.request.path = "/oauth/decision" ∧ h.request.method = "POST"))
    (hdistinct : a.Distinct h.session) :
    (∀ e, h.request.read = .error e →
      a.sessionAfter h = h.session ∧ (a.requestAfter h).session = none) ∧
    ∀ request, h.request.read = .ok request →
      (a.Mirrors (a.sessionAfter h) (a.requestAfter h) ↔
        ¬ (config.errorOptions.mode = .indirect ∧ ∃ id, a.Forsakes h request id)) ∧
      ∀ id, a.Forsakes h request id →
        h.session.recordAt? a.sessionKey id ≠ none ∧
          (a.requestAfter h).recordAt? a.sessionKey id = none ∧
          ((a.sessionAfter h).recordAt? a.sessionKey id = none ↔ config.errorOptions.mode = .direct) := by
  have ha := installed_ofConfig hconfig
  have hs := store_of_ofConfig hconfig hkind
  obtain rfl := config_of_ofConfig hconfig
  have hforsaken : ∀ {request id}, h.request.read = .ok request → a.Forsakes h request id →
      h.session.recordAt? a.sessionKey id ≠ none ∧ (a.requestAfter h).recordAt? a.sessionKey id = none ∧
        (a.config.errorOptions.mode = .indirect → a.sessionAfter h = h.session) := by
    intro request id hread hf
    obtain ⟨hgone, hkept⟩ := decision_forsaken ha hs hdistinct hread hf.deauthorized
    have hthere := Server.recordAt?_of_deauthorized hs hf.deauthorized
    rw [sessionKey_eq ha, arrival_recordAt?] at hthere
    rw [← route_decision hf.path hf.method] at hgone hkept
    exact ⟨hthere, hgone, hkept⟩
  have hmirrors : ∀ {request}, h.request.read = .ok request →
      a.config.errorOptions.mode = .direct ∨ (∀ id, ¬ a.Forsakes h request id) →
        a.Mirrors (a.sessionAfter h) (a.requestAfter h) := by
    intro request hread hkept
    rw [sessionAfter_eq, requestAfter]
    obtain ⟨hpath, hmethod⟩ | ⟨hpath, hmethod⟩ := hpage
    · rw [route_authorize hpath hmethod]
      exact authorize_mirrors ha hs hdistinct hread
    · rw [route_decision hpath hmethod]
      refine decision_mirrors ha hs hdistinct hread (hkept.symm.imp_left fun hnone => ?_)
      rw [Option.eq_none_iff_forall_ne_some]
      exact fun id hid => hnone id ⟨hpath, hmethod, hid⟩
  refine ⟨fun e hread => ?_, fun request hread => ⟨⟨?_, fun hkept => ?_⟩, fun id hf => ?_⟩⟩
  · rw [sessionAfter_eq, requestAfter]
    obtain ⟨hpath, hmethod⟩ | ⟨hpath, hmethod⟩ := hpage
    · rw [route_authorize hpath hmethod]
      exact unread_sessions hread _
    · rw [route_decision hpath hmethod]
      exact unread_sessions hread _
  · rintro hmirrored ⟨hmode, id, hf⟩
    obtain ⟨hthere, hgone, hsame⟩ := hforsaken hread hf
    have hafter := hmirrored id
    rw [hgone, hsame hmode, Option.map_none, or_self] at hafter
    exact hthere hafter
  · refine hmirrors hread ?_
    cases hmode : a.config.errorOptions.mode with
    | direct => exact .inl rfl
    | indirect => exact .inr fun id hf => hkept ⟨hmode, id, hf⟩
  · obtain ⟨hthere, hgone, hsame⟩ := hforsaken hread hf
    refine ⟨hthere, hgone, fun hafter => ?_, fun hmode => ?_⟩
    · cases hmode : a.config.errorOptions.mode with
      | direct => rfl
      | indirect => rw [hsame hmode] at hafter; exact absurd hafter hthere
    · have hafter := hmirrors hread (.inl hmode) id
      rwa [hgone, Option.map_none, or_self] at hafter

/-! ## A site without clients -/

def handingBack : Config := { Config.standard with errorMode := "indirect" }

/-- Hands errors back, and has no clients left. -/
def deserted : App :=
  match App.ofConfig handingBack (.ofList []) with
  | .ok a => a
  | .error _ => ⟨handingBack, [], .ofStore .session⟩

/-- Waits for a client that is gone. -/
def orphan : Transaction :=
  { Transaction.ofRequest (.ofType ⟨["code"]⟩) with client := some (.str "c1") }

/-- The resource owner decides on what the host still has. -/
def lateDecision : Turn where
  world := ⟨fun _ => [], ⟨fun _ => 0, 0⟩, .zero, ⟨[], ⟨fun _ => 0, 0⟩⟩⟩
  session := [("authorize", .obj [("a1", orphan.toValue)])]
  request := .ofUri "POST" "/oauth/decision" "application/x-www-form-urlencoded"
    (Text.Utf8.bytes "transaction_id=a1")

def namingOrphan : Request :=
  { Request.empty with body := some [("transaction_id", .str "a1")] }

theorem deserted_ofConfig : App.ofConfig handingBack (.ofList []) = .ok deserted := rfl

theorem lateDecision_read : lateDecision.request.read = .ok namingOrphan := by
  have hquery : Text.Form.decode lateDecision.request.query = [] := by decide +kernel
  have hform : lateDecision.request.mediaType = "application/x-www-form-urlencoded" := by decide +kernel
  have hbody : Text.Form.decode lateDecision.request.body = [("transaction_id", "a1")] := by
    decide +kernel
  rw [HttpRequest.read, HttpRequest.queryParams, HttpRequest.bodyParams, if_pos hform,
    HttpRequest.pairs, HttpRequest.pairs, hquery, hbody]
  rfl

theorem lateDecision_forsakes : deserted.Forsakes lateDecision namingOrphan "a1" :=
  ⟨by decide +kernel, by decide +kernel, by decide +kernel⟩

theorem lateDecision_distinct : deserted.Distinct lateDecision.session := by
  intro records hrecords
  cases hrecords
  exact List.nodup_cons.2 ⟨nofun, .nil⟩

/-- The request loses the transaction, and the host keeps it. -/
theorem orphan_stays :
    ((deserted.arrival lateDecision namingOrphan).request.recordAt? deserted.sessionKey "a1").isSome ∧
      (deserted.requestAfter lateDecision).recordAt? deserted.sessionKey "a1" = none ∧
      ((deserted.sessionAfter lateDecision).recordAt? deserted.sessionKey "a1").isSome := by
  decide +kernel

theorem lateDecision_mirrored :
    (deserted.Mirrors (deserted.sessionAfter lateDecision) (deserted.requestAfter lateDecision) ↔
        ¬ (handingBack.errorOptions.mode = .indirect ∧
          ∃ id, deserted.Forsakes lateDecision namingOrphan id)) ∧
      (deserted.requestAfter lateDecision).recordAt? deserted.sessionKey "a1" = none ∧
      ((deserted.sessionAfter lateDecision).recordAt? deserted.sessionKey "a1" = none ↔
        handingBack.errorOptions.mode = .direct) := by
  obtain ⟨hiff, hforsaken⟩ := (session_mirrored deserted_ofConfig rfl
    (.inr ⟨by decide +kernel, by decide +kernel⟩) lateDecision_distinct).2 _ lateDecision_read
  obtain ⟨-, hgone, hkept⟩ := hforsaken _ lateDecision_forsakes
  exact ⟨hiff, hgone, hkept⟩

end App

end Site

end AuthServer

import AuthServer.Proofs.Endpoint.Authorization
import AuthServer.Proofs.Store.Operations

/-!
# What an authorization asks, and how it ends

Everything that an authorization does to the host and to the response it does by asking callbacks:
parsers, then the validation, then for a decision at once, then responders or a writer of the
client. The answers make up the transaction. It ends pending, answered, or with an error, and in
each case request, response and store are in one definite state.
-/

namespace AuthServer

open Json Store

variable {σ : Type}

namespace Step

variable {s α : Type} {x : Step s α} {st st' : s}

theorem run_of_guarded_ok {a : α} (h : x.guarded.run st = (.ok a, st')) : x.run st = (.ok a, st') := by
  rw [run_guarded] at h
  rcases hx : x.run st with ⟨_ | _, _⟩ <;> rw [hx] at h <;> cases h
  rfl

theorem run_of_guarded_error {e : Fault} (h : x.guarded.run st = (.error e, st')) :
    ∃ f, x.run st = (.error f, st') := by
  rw [run_guarded] at h
  rcases hx : x.run st with ⟨f | _, _⟩ <;> rw [hx] at h <;> cases h
  exact ⟨f, rfl⟩

end Step

/-- A callback that was asked, and what it answered or failed with. -/
inductive Inquiry (σ : Type) where
  | parse (l : Layer (RequestParser σ)) (answer : Except Fault Params)
  | validate (request : AuthorizationRequest) (answer : Except Fault Validated)
  | immediate (t : Transaction) (answer : Except Fault Verdict)
  | write (client : Value) (answer : Except Fault Value)
  | respond (l : Layer (Responder σ)) (t : Transaction) (answer : Except Fault Flow)

namespace Inquiry

def parser? : Inquiry σ → Option (Layer (RequestParser σ))
  | parse l _ => some l
  | _ => none

def responder? : Inquiry σ → Option (Layer (Responder σ))
  | respond l _ _ => some l
  | _ => none

/-- What an answer makes of the transaction. -/
def shape (locals : Option Params) (t : Transaction) : Inquiry σ → Transaction
  | parse _ (.ok fields) => { t with request := t.request.merge fields }
  | validate _ (.ok a) =>
    let t := t.validated a.client a.redirectUri a.webOrigin
    if a.client.isNone then t else t.mergeLocals locals
  | immediate _ (.ok verdict) =>
    let t := t.mergeLocals verdict.locals
    if verdict.allow then
      { t with decision := some (.withFields true (verdict.info.getD [])), phase := .decided }
    else t.withInfo verdict.info
  | respond _ _ (.ok .done) => t.responded
  | _ => t

/-- A parser for exactly the type took part. -/
def Recognized (es : List (Inquiry σ)) : Prop :=
  ∃ l fields, .parse l (.ok fields) ∈ es ∧ l.type.isSome = true

/-- The validation was asked. -/
def Examined (es : List (Inquiry σ)) : Prop := ∃ r a, .validate r a ∈ es

/-- The validation gave a client. -/
def Identified (es : List (Inquiry σ)) : Prop :=
  ∃ r a, .validate r (.ok a) ∈ es ∧ a.client.isSome = true

/-- A decision at once was asked for, and was to allow or not. -/
def Decided (allow : Bool) (es : List (Inquiry σ)) : Prop :=
  ∃ t verdict, .immediate t (.ok verdict) ∈ es ∧ verdict.allow = allow

end Inquiry

namespace Server

/-- The type that a request asks for; empty where it asks for none. -/
def askedType (req : Request) : TypeSet := (responseType req).toOption.getD ⟨[]⟩

/-- The transaction before any parser contributed. -/
def opening (s : Server σ) (v : Visit σ) : Transaction :=
  { Transaction.ofRequest (.ofType (askedType v.request)) with
    user := v.request.principal? s.options.userProperty }

/-- The inquiries so far, the response and the host that they left, and the transaction built from
their answers. Each inquiry is about that transaction, and has to wait for the ones before it. -/
inductive Asked (s : Server σ) (c : AuthorizationCallbacks σ) (v : Visit σ) :
    List (Inquiry σ) → Reply σ → Transaction → Prop where
  | start : Asked s c v [] v.reply (s.opening v)
  /-- Parsers for the type, in order of registration. -/
  | parse {es : List (Inquiry σ)} {reply : Reply σ} {t : Transaction}
    {l : Layer (RequestParser σ)} {answer : Except Fault Params} {host : σ} :
    Asked s c v es reply t →
    es.filterMap Inquiry.parser? ++ [l] <+:
      Layer.applicable s.dispatcher.parsers (askedType v.request) →
    (l.handler v.request).run reply.host = (answer, host) →
    Asked s c v (es ++ [.parse l answer]) { reply with host }
      ((Inquiry.parse l answer).shape v.response.locals t)
  /-- Once, after a parser for exactly the type. -/
  | validate {es : List (Inquiry σ)} {reply : Reply σ} {t : Transaction}
    {answer : Except Fault Validated} {host : σ} :
    Asked s c v es reply t → Inquiry.Recognized es → ¬ Inquiry.Examined es →
    (c.validate t.request).run reply.host = (answer, host) →
    Asked s c v (es ++ [.validate t.request answer]) { reply with host }
      ((Inquiry.validate t.request answer : Inquiry σ).shape v.response.locals t)
  /-- Once, after the validation gave a client. -/
  | immediate {es : List (Inquiry σ)} {reply : Reply σ} {t : Transaction} {i : Immediate σ}
    {answer : Except Fault Verdict} {host : σ} :
    Asked s c v es reply t → Inquiry.Identified es → (∀ t a, .immediate t a ∉ es) →
    c.immediate = some i → (i t).run reply.host = (answer, host) →
    Asked s c v (es ++ [.immediate t answer]) { reply with host }
      ((Inquiry.immediate t answer : Inquiry σ).shape v.response.locals t)
  /-- The client that the validation gave. -/
  | write {es : List (Inquiry σ)} {reply : Reply σ} {t : Transaction} {client : Value}
    {answer : Except Fault Value} {host : σ} :
    Asked s c v es reply t → Inquiry.Identified es → ¬ Inquiry.Decided true es →
    t.client = some client → (s.clients.write client).run reply.host = (answer, host) →
    Asked s c v (es ++ [.write client answer]) { reply with host }
      ((Inquiry.write client answer : Inquiry σ).shape v.response.locals t)
  /-- Responders for the type, in order of registration, after a decision to allow. -/
  | respond {es : List (Inquiry σ)} {reply reply' : Reply σ} {t : Transaction}
    {l : Layer (Responder σ)} {answer : Except Fault Flow} :
    Asked s c v es reply t → Inquiry.Decided true es →
    es.filterMap Inquiry.responder? ++ [l] <+:
      Layer.applicable s.dispatcher.responders t.request.type →
    (l.handler t c.completion).run reply = (answer, reply') →
    Asked s c v (es ++ [.respond l t answer]) reply'
      ((Inquiry.respond l t answer).shape v.response.locals t)

/-- One entry is stored under `id`, for the transaction `t`, and no other. -/
inductive StoredOnce (s : Server σ) (v : Visit σ) (es : List (Inquiry σ)) (id : String) (t : Transaction)
    (v' : Visit σ) : Prop where
  | memory {number : Nat} {lifetime : Lifetime σ} :
    s.store = .memory number lifetime →
    v'.world.memories =
      (v.world.setMemory number ((kept lifetime v'.world.host (v.world.memories number)).put id t)).memories →
    v'.request.session = v.request.session → StoredOnce s v es id t v'
  /-- The record has the client in its stored form. -/
  | session {session : Params} {client stored : Value} :
    s.store = .session → v.request.session = some session →
    .write client (.ok stored) ∈ es → t.client = some client →
    v'.request.session = some (putRecord session s.options.sessionKey id
      { t with id := none, client := some stored }.toValue) →
    v'.world.memories = v.world.memories → StoredOnce s v es id t v'

/-- Why no validation was asked. -/
inductive Unvalidated (s : Server σ) (v : Visit σ) (es : List (Inquiry σ)) : OAuthError → Prop where
  | untyped {e : OAuthError} : responseType v.request = .error e → Unvalidated s v es e
  | unparsed {l : Layer (RequestParser σ)} {f : Fault} :
    .parse l (.error f) ∈ es → Unvalidated s v es f.report
  | unrecognized {type : TypeSet} :
    responseType v.request = .ok type →
    (∀ l ∈ Layer.applicable s.dispatcher.parsers type, l.type = none) →
    Unvalidated s v es (.unsupportedResponseType type.display)

/-- The request with the transaction `t`, and nothing stored. -/
def Holds (v : Visit σ) (t : Option Transaction) (v' : Visit σ) : Prop :=
  v'.request = { v.request with transaction := t } ∧ v'.world.memories = v.world.memories

/-- The ends of an authorization that built the transaction `t`. -/
inductive Ended (s : Server σ) (c : AuthorizationCallbacks σ) (v : Visit σ) (es : List (Inquiry σ))
    (t : Transaction) : Except Fault Outcome → Visit σ → Prop where
  | pending {id : String} {v' : Visit σ} :
    v'.response = v.response → (c.immediate = none ∨ Inquiry.Decided false es) →
    StoredOnce s v es id t v' → v'.request.transaction = some (t.persisted id) →
    t.client.isSome = true → t.decision = none → Ended s c v es t (.ok (.pending id)) v'
  | responded {d : Decision} {l : Layer (Responder σ)} {t' : Transaction} {v' : Visit σ} :
    Inquiry.Decided true es → .respond l t' (.ok .done) ∈ es →
    Holds v (some t) v' → t.decision = some d → d.allow = true → t.phase = .responded →
    Ended s c v es t (.ok .responded) v'
  /-- Before the validation: the request is as it was. -/
  | unvalidated {e : OAuthError} {v' : Visit σ} :
    Unvalidated s v es e → ¬ Inquiry.Examined es → v'.response = v.response →
    Holds v v.request.transaction v' → Ended s c v es t (.error (.error e)) v'
  /-- From then on: what was built so far, with the redirect URI of the validation. -/
  | failed {e : OAuthError} {request : AuthorizationRequest} {a : Except Fault Validated}
    {v' : Visit σ} :
    .validate request a ∈ es → t.redirectUri = a.toOption.bind (·.redirectUri) →
    Holds v (some t) v' → Ended s c v es t (.error (.error e)) v'

variable {s : Server σ} {c : AuthorizationCallbacks σ} {v v' w w' : Visit σ} {es : List (Inquiry σ)}
  {reply : Reply σ} {t t' : Transaction}

/-! ## Notes -/

/-- A host that takes its notes at each inquiry. -/
structure Notes {ν : Type} (s : Server σ) (c : AuthorizationCallbacks σ) (note : Inquiry σ → List ν)
    (journal : σ → List ν) : Prop where
  parse : ∀ l ∈ s.dispatcher.parsers, ∀ req host, journal ((l.handler req).run host).2 =
    journal host ++ note (.parse l ((l.handler req).run host).1)
  validate : ∀ request host, journal ((c.validate request).run host).2 =
    journal host ++ note (.validate request ((c.validate request).run host).1)
  immediate : ∀ i, c.immediate = some i → ∀ t host, journal ((i t).run host).2 =
    journal host ++ note (.immediate t ((i t).run host).1)
  write : ∀ client host, journal ((s.clients.write client).run host).2 =
    journal host ++ note (.write client ((s.clients.write client).run host).1)
  respond : ∀ l ∈ s.dispatcher.responders, ∀ t reply,
    journal ((l.handler t c.completion).run reply).2.host =
      journal reply.host ++ note (.respond l t ((l.handler t c.completion).run reply).1)

theorem mem_of_next {η : Type} {earlier : List (Layer η)} {layers : List (Layer η)} {type : TypeSet}
    {l : Layer η} (h : earlier ++ [l] <+: Layer.applicable layers type) : l ∈ layers :=
  (List.mem_filter.1 (h.subset (List.mem_append_right _ (List.mem_singleton_self l)))).1

/-- The inquiries are what such a host has noted, in the order of its notes. -/
theorem Asked.noted {ν : Type} {note : Inquiry σ → List ν} {journal : σ → List ν}
    (hn : Notes s c note journal) (ha : Asked s c v es reply t) :
    journal reply.host = journal v.world.host ++ es.flatMap note := by
  induction ha with
  | start => simp [Visit.reply]
  | @parse es reply t l answer host _ hnext hrun ih =>
    have hnoted := hn.parse l (mem_of_next hnext) v.request reply.host
    rw [hrun, ih] at hnoted
    simpa using hnoted
  | @validate es reply t answer host _ _ _ hrun ih =>
    have hnoted := hn.validate t.request reply.host
    rw [hrun, ih] at hnoted
    simpa using hnoted
  | @immediate es reply t i answer host _ _ _ hi hrun ih =>
    have hnoted := hn.immediate i hi t reply.host
    rw [hrun, ih] at hnoted
    simpa using hnoted
  | @write es reply t client answer host _ _ _ _ hrun ih =>
    have hnoted := hn.write client reply.host
    rw [hrun, ih] at hnoted
    simpa using hnoted
  | @respond es reply reply' t l answer _ _ hnext hrun ih =>
    have hnoted := hn.respond l (mem_of_next hnext) t reply
    rw [hrun, ih] at hnoted
    simpa using hnoted

/-! ## Parsers -/

/-- Only parsers were asked. -/
def OnlyParsers (es : List (Inquiry σ)) : Prop := ∀ e ∈ es, (Inquiry.parser? e).isSome = true

theorem onlyParsers_nil : OnlyParsers ([] : List (Inquiry σ)) := fun _ hmem =>
  absurd hmem List.not_mem_nil

theorem OnlyParsers.not_examined (h : OnlyParsers es) : ¬ Inquiry.Examined es := by
  rintro ⟨r, a, hmem⟩
  cases h _ hmem

theorem OnlyParsers.not_immediate (h : OnlyParsers es) (t : Transaction) (a : Except Fault Verdict) :
    .immediate t a ∉ es :=
  fun hmem => nomatch h _ hmem

theorem OnlyParsers.responders (h : OnlyParsers es) : es.filterMap Inquiry.responder? = [] := by
  rw [List.filterMap_eq_nil_iff]
  intro e hmem
  have hparser := h e hmem
  cases e <;> first | rfl | cases hparser

/-- The parsers `ls` are asked in turn, until one fails. -/
theorem Asked.parseWith {ls : List (Layer (RequestParser σ))} {p : Parsed} {r : Except Fault Parsed}
    {host : σ} (ha : Asked s c v es reply t) (honly : OnlyParsers es)
    (hls : es.filterMap Inquiry.parser? ++ ls =
      Layer.applicable s.dispatcher.parsers (askedType v.request))
    (hp : p.request = t.request) (hrecognized : p.recognized = true → Inquiry.Recognized es)
    (h : (Dispatcher.parseWith v.request ls p).run reply.host = (r, host)) :
    ∃ es' t', Asked s c v es' { reply with host } t' ∧ OnlyParsers es' ∧
      ((∃ parsed, r = .ok parsed ∧ t' = { t with request := parsed.request } ∧
          (parsed.recognized = true → Inquiry.Recognized es') ∧
          parsed.recognized = (p.recognized || ls.any (·.type.isSome))) ∨
        ∃ l f, .parse l (.error f) ∈ es' ∧ r = .error (.error f.report)) := by
  induction ls generalizing es reply t p with
  | nil =>
    cases h
    exact ⟨es, t, ha, honly, .inl ⟨p, rfl, by rw [hp], hrecognized, by simp⟩⟩
  | cons l rest ih =>
    have hnext : es.filterMap Inquiry.parser? ++ [l] <+:
        Layer.applicable s.dispatcher.parsers (askedType v.request) := by
      rw [← hls]
      exact ⟨rest, by simp⟩
    rcases hrun : (l.handler v.request).run reply.host with ⟨answer, host₁⟩
    have hasked := ha.parse hnext hrun
    have honly' : OnlyParsers (es ++ [.parse l answer]) := by
      intro e hmem
      rcases List.mem_append.1 hmem with hmem | hmem
      · exact honly e hmem
      · cases List.mem_singleton.1 hmem
        rfl
    rw [Dispatcher.parseWith, Step.run_bind, Step.run_guarded, hrun] at h
    cases answer with
    | error f =>
      cases h
      exact ⟨_, _, hasked, honly', .inr ⟨l, f, by simp, rfl⟩⟩
    | ok fields =>
      have hrecognized' : (p.recognized || l.type.isSome) = true →
          Inquiry.Recognized (es ++ [.parse l (.ok fields)]) := by
        intro hor
        rcases Bool.or_eq_true_iff.1 hor with hearlier | hl
        · obtain ⟨l', fields', hmem, hl'⟩ := hrecognized hearlier
          exact ⟨l', fields', List.mem_append_left _ hmem, hl'⟩
        · exact ⟨l, fields, by simp, hl⟩
      obtain ⟨es', t', hasked', honly'', hend⟩ := ih hasked honly' (by simp [← hls, Inquiry.parser?])
        (by rw [hp]; rfl) hrecognized' h
      refine ⟨es', t', hasked', honly'', hend.imp_left ?_⟩
      rintro ⟨parsed, rfl, rfl, hyes, heq⟩
      exact ⟨parsed, rfl, rfl, hyes, by rw [heq, List.any_cons, Bool.or_assoc]⟩

theorem Unvalidated.of_unrecognized {type : TypeSet}
    (ht : responseType v.request = .ok type)
    (hnone : (Layer.applicable s.dispatcher.parsers type).any (·.type.isSome) = false) :
    Unvalidated s v es (.unsupportedResponseType type.display) :=
  .unrecognized ht fun l hl => Option.not_isSome_iff_eq_none.1 (List.any_eq_false.1 hnone l hl)

theorem newTransaction_asked {r : Except Fault Transaction} (h : s.newTransaction.run v = (r, w)) :
    ∃ es t host, w = v.withHost host ∧ Asked s c v es w.reply t ∧ OnlyParsers es ∧
      ((r = .ok t ∧ t = { s.opening v with request := t.request } ∧ Inquiry.Recognized es) ∨
        ∃ e, r = .error (.error e) ∧ Unvalidated s v es e) := by
  simp only [newTransaction, Step.run_gets_bind] at h
  rcases ht : responseType v.request with e | type <;> rw [ht] at h
  · cases h
    exact ⟨[], s.opening v, v.world.host, rfl, .start, onlyParsers_nil, .inr ⟨e, rfl, .untyped ht⟩⟩
  have htype : askedType v.request = type := by simp [askedType, ht, Except.toOption]
  simp only [Step.ofExcept, pure_bind] at h
  rw [Step.run_bind, Step.run_asHost] at h
  rcases hp : (s.dispatcher.parse type v.request).run v.world.host with ⟨r₁, host⟩
  rw [hp] at h
  obtain ⟨es, t, ha, honly, hend⟩ := Asked.parseWith (c := c) .start onlyParsers_nil
    (by rw [htype]; rfl) (by rw [opening, htype]; rfl) (fun hno => by cases hno) hp
  rcases hend with ⟨parsed, rfl, rfl, hrecognized, hany⟩ | ⟨l, f, hmem, rfl⟩ <;> simp only at h
  · rcases hyes : parsed.recognized with _ | _ <;> rw [hyes] at h hany <;> cases h
    · exact ⟨es, _, host, rfl, ha, honly, .inr ⟨_, rfl, .of_unrecognized ht hany.symm⟩⟩
    · exact ⟨es, _, host, rfl, ha, honly, .inl ⟨rfl, rfl, hrecognized hyes⟩⟩
  · cases h
    exact ⟨es, t, host, rfl, ha, honly, .inr ⟨_, rfl, .unparsed hmem⟩⟩

/-! ## The validation -/

/-- The validation gave the client of `t`, and its redirect URI. -/
def Vetted (es : List (Inquiry σ)) (t : Transaction) : Prop :=
  ∃ request a, .validate request (.ok a) ∈ es ∧ a.client = t.client ∧ t.client.isSome = true ∧
    a.redirectUri = t.redirectUri

theorem Vetted.identified (h : Vetted es t) : Inquiry.Identified es := by
  obtain ⟨request, a, hmem, hclient, hsome, -⟩ := h
  exact ⟨request, a, hmem, by rw [hclient]; exact hsome⟩

theorem Vetted.before {es' : List (Inquiry σ)} (h : Vetted es t) (hes : es <+: es')
    (hclient : t'.client = t.client) (huri : t'.redirectUri = t.redirectUri) : Vetted es' t' := by
  obtain ⟨request, a, hmem, hclient', hsome, huri'⟩ := h
  exact ⟨request, a, hes.subset hmem, by rw [hclient, hclient'], by rw [hclient]; exact hsome,
    by rw [huri, huri']⟩

theorem Vetted.failed {e : OAuthError} (h : Vetted es t) (hholds : Holds v (some t) v') :
    Ended s c v es t (.error (.error e)) v' := by
  obtain ⟨request, a, hmem, -, -, huri⟩ := h
  exact .failed hmem huri.symm hholds

/-- The validation was the last that was asked, and gave a client. -/
structure Introduced (es : List (Inquiry σ)) (t : Transaction) : Prop where
  vetted : Vetted es t
  undecided : t.decision = none
  unasked : ∀ t a, .immediate t a ∉ es
  unanswered : es.filterMap Inquiry.responder? = []

theorem Validating.asked {host : σ} {r : Except Fault Transaction}
    (ha : Asked s c v es ⟨v.response, host⟩ t) (honly : OnlyParsers es)
    (hrecognized : Inquiry.Recognized es) (hopen : t = { s.opening v with request := t.request })
    (h : Validating c t (v.withHost host) r w) :
    ∃ es' t', Asked s c v es' w.reply t' ∧
      ((r = .ok t' ∧ Introduced es' t' ∧ ∃ host', w = v.withHost host') ∨
        ∃ e, r = .error (.error e) ∧ Ended s c v es' t' (.error (.error e)) w) := by
  cases h with
  | @failed e host' hrun =>
    obtain ⟨f, hrun⟩ := Step.run_of_guarded_error hrun
    refine ⟨_, _, ha.validate hrecognized honly.not_examined hrun, .inr ⟨e, rfl, ?_⟩⟩
    exact .failed (List.mem_append_right _ (List.mem_singleton_self _)) (by rw [hopen]; rfl) ⟨rfl, rfl⟩
  | @unauthorized a host' hrun hclient =>
    have hasked := ha.validate hrecognized honly.not_examined (Step.run_of_guarded_ok hrun)
    simp only [Inquiry.shape, hclient] at hasked
    refine ⟨_, _, hasked, .inr ⟨_, rfl, ?_⟩⟩
    exact .failed (List.mem_append_right _ (List.mem_singleton_self _)) rfl ⟨rfl, rfl⟩
  | @passed a host' client hrun hclient =>
    have hasked := ha.validate hrecognized honly.not_examined (Step.run_of_guarded_ok hrun)
    simp only [Inquiry.shape, hclient] at hasked
    refine ⟨_, _, hasked, .inl ⟨rfl, ⟨⟨t.request, a, by simp, hclient, rfl, rfl⟩, ?_, ?_, ?_⟩, host', rfl⟩⟩
    · rw [hopen]
      rfl
    · intro t' a' hmem
      rcases List.mem_append.1 hmem with hmem | hmem
      · exact honly.not_immediate t' a' hmem
      · cases List.mem_singleton.1 hmem
    · rw [List.filterMap_append, honly.responders]
      rfl

/-! ## Storing -/

/-- A store of the session writes the client first. -/
theorem storeNew_session_of_client (hs : s.store = .session) {client : Value}
    (hclient : t.client = some client) :
    (s.storeNew t).run v =
      match v.request.session, (s.clients.write client).run v.world.host with
      | none, _ => (.error (.error sessionRequired), v)
      | some _, (.error f, host) => (.error f, v.withHost host)
      | some session, (.ok stored, host) =>
        (.ok (v.world.ids.peek s.options.idLength),
          ((v.withHost host).drawn s.options.idLength).withSession
            (putRecord session s.options.sessionKey (v.world.ids.peek s.options.idLength)
              { t with id := none, client := some stored }.toValue)) := by
  rw [storeNew_session_eq hs]
  rcases v.request.session with _ | session
  · rfl
  · simp only [recordOf, hclient]
    rw [Step.run_bind, Step.run_onHost, show v.access.world.host = v.world.host from rfl]
    rcases (s.clients.write client).run v.world.host with ⟨f | stored, host⟩ <;> rfl

/-- The two stores that come with the server. -/
def StandardStore (s : Server σ) : Prop :=
  s.store = .session ∨ ∃ number lifetime, s.store = .memory number lifetime

theorem StoredOnce.congr {id : String} (h : StoredOnce s v es id t w)
    (hmemories : w'.world.memories = w.world.memories) (hhost : w'.world.host = w.world.host)
    (hsession : w'.request.session = w.request.session) : StoredOnce s v es id t w' := by
  cases h with
  | memory hs hput hkept =>
    exact .memory hs (hmemories.trans (by rw [hhost]; exact hput)) (hsession.trans hkept)
  | session hs hv hwrite hclient hput hkept =>
    exact .session hs hv hwrite hclient (hsession.trans hput) (hmemories.trans hkept)

theorem Vetted.storeNew_asked (hs : s.StandardStore) {host : σ} {r : Except Fault String}
    (ha : Asked s c v es ⟨v.response, host⟩ t) (hv : Vetted es t) (hdefer : ¬ Inquiry.Decided true es)
    (h : (s.storeNew t).run (v.withHost host) = (r, w)) :
    ∃ es', es <+: es' ∧ Asked s c v es' w.reply t ∧
      ((∃ id, r = .ok id ∧ w.response = v.response ∧ StoredOnce s v es' id t w) ∨
        ∃ e host', r = .error (.error e) ∧ w = v.withHost host') := by
  rcases hs with hs | ⟨number, lifetime, hs⟩
  · obtain ⟨client, hclient⟩ : ∃ client, t.client = some client := by
      obtain ⟨-, -, -, -, hsome, -⟩ := hv
      exact Option.isSome_iff_exists.1 hsome
    rw [storeNew_session_of_client hs hclient] at h
    rcases hsession : v.request.session with _ | session <;>
      simp only [Visit.withHost, hsession] at h
    · cases h
      exact ⟨es, List.prefix_refl _, ha, .inr ⟨_, host, rfl, rfl⟩⟩
    · rcases hwrite : (s.clients.write client).run host with ⟨f | stored, host'⟩ <;>
        rw [hwrite] at h <;> cases h
      · have hasked := ha.write hv.identified hdefer hclient hwrite
        refine ⟨_, List.prefix_append _ _, hasked, .inr ?_⟩
        cases f with
        | error e => exact ⟨e, host', rfl, rfl⟩
        | crash => exact absurd rfl (ClientForms.write_ne_crash hwrite)
      · have hasked := ha.write hv.identified hdefer hclient hwrite
        refine ⟨_, List.prefix_append _ _, hasked, .inl ⟨_, rfl, rfl, ?_⟩⟩
        exact .session hs hsession (List.mem_append_right _ (List.mem_singleton_self _)) hclient rfl rfl
  · rw [storeNew_memory hs] at h
    cases h
    exact ⟨es, List.prefix_refl _, ha, .inl ⟨_, rfl, rfl, .memory hs rfl rfl⟩⟩

theorem Suspending.asked (hs : s.StandardStore) {host : σ} {r : Except Fault Outcome}
    (ha : Asked s c v es ⟨v.response, host⟩ t) (hv : Vetted es t) (hundecided : t.decision = none)
    (hdefer : ¬ Inquiry.Decided true es) (hwhy : c.immediate = none ∨ Inquiry.Decided false es)
    (h : Suspending s t (v.withHost host) r w) :
    ∃ es', Asked s c v es' w.reply t ∧ Ended s c v es' t r w := by
  cases h with
  | @stored id v₁ hrun =>
    obtain ⟨es', hes, hasked, ⟨_, hid, hr, hstored⟩ | ⟨_, _, he, -⟩⟩ :=
      hv.storeNew_asked hs ha hdefer hrun
    · cases hid
      have hreply : (s.tally (·.countStarted) (v₁.holding (t.persisted id))).reply = v₁.reply := by
        simp [Visit.reply, Visit.holding]
      refine ⟨es', by rw [hreply]; exact hasked, .pending (by rw [tally_response]; exact hr) ?_
        (hstored.congr (by rw [tally_memories]; rfl) (by rw [tally_host]; rfl) (by rw [tally_request]; rfl))
        (by rw [tally_request]; rfl) ?_ hundecided⟩
      · exact hwhy.imp_right fun ⟨t', verdict, hmem, hno⟩ => ⟨t', verdict, hes.subset hmem, hno⟩
      · obtain ⟨-, -, -, -, hsome, -⟩ := hv
        exact hsome
    · cases he
  | failed hrun =>
    obtain ⟨es', hes, hasked, ⟨_, hid, -⟩ | ⟨e, host', he, rfl⟩⟩ := hv.storeNew_asked hs ha hdefer hrun
    · cases hid
    · cases he
      exact ⟨es', hasked, (hv.before hes rfl rfl).failed ⟨rfl, rfl⟩⟩
  | crashed hrun =>
    obtain ⟨_, -, -, ⟨_, hid, -⟩ | ⟨_, _, he, -⟩⟩ := hv.storeNew_asked hs ha hdefer hrun
    · cases hid
    · cases he

/-! ## Answering at once -/

/-- The responders `ls` are asked in turn, until one is done or fails. -/
theorem Asked.firstDone {ls : List (Layer (Responder σ))} {r : Except Fault Flow} {reply' : Reply σ}
    (ha : Asked s c v es reply t) (hallow : Inquiry.Decided true es)
    (hls : es.filterMap Inquiry.responder? ++ ls =
      Layer.applicable s.dispatcher.responders t.request.type)
    (h : (Dispatcher.firstDone (ls.map fun l => l.handler t c.completion)).run reply = (r, reply')) :
    ∃ es', es <+: es' ∧
      ((r = .ok .done ∧ Asked s c v es' reply' t.responded ∧ ∃ l, .respond l t (.ok .done) ∈ es') ∨
        (Asked s c v es' reply' t ∧ (r = .ok .next ∨ ∃ e, r = .error (.error e)))) := by
  induction ls generalizing es reply with
  | nil =>
    cases h
    exact ⟨es, List.prefix_refl _, .inr ⟨ha, .inl rfl⟩⟩
  | cons l rest ih =>
    have hnext : es.filterMap Inquiry.responder? ++ [l] <+:
        Layer.applicable s.dispatcher.responders t.request.type := by
      rw [← hls]
      exact ⟨rest, by simp⟩
    rcases hrun : (l.handler t c.completion).run reply with ⟨answer, reply₁⟩
    have hasked := ha.respond hallow hnext hrun
    have hes : es <+: es ++ [.respond l t answer] := List.prefix_append _ _
    rw [List.map_cons, Dispatcher.firstDone, Step.run_bind, Step.run_guarded, hrun] at h
    rcases answer with f | _ | _
    · cases h
      exact ⟨_, hes, .inr ⟨hasked, .inr ⟨f.report, rfl⟩⟩⟩
    · cases h
      exact ⟨_, hes, .inl ⟨rfl, hasked, l, by simp⟩⟩
    · obtain ⟨t', verdict, hmem, hyes⟩ := hallow
      obtain ⟨es', hes', hend⟩ := ih hasked ⟨t', verdict, hes.subset hmem, hyes⟩
        (by simp [← hls, Inquiry.responder?]) h
      exact ⟨es', hes.trans hes', hend⟩

theorem Responding.asked {r : Except Fault Unit} {d : Decision} (ha : Asked s c v es w.reply t)
    (hv : Vetted es t) (hallow : Inquiry.Decided true es) (hd : t.decision = some d ∧ d.allow = true)
    (hfirst : es.filterMap Inquiry.responder? = []) (hw : Holds v (some t) w)
    (h : Responding s c.completion t w r w') :
    ∃ es' t', Asked s c v es' w'.reply t' ∧ Ended s c v es' t' (r.map fun _ => .responded) w' := by
  have hrespond : ∀ {r₁ reply}, (s.dispatcher.respond t c.completion).run w.reply = (r₁, reply) →
      ∃ es', es <+: es' ∧
        ((r₁ = .ok .done ∧ Asked s c v es' reply t.responded ∧ ∃ l, .respond l t (.ok .done) ∈ es') ∨
          (Asked s c v es' reply t ∧ (r₁ = .ok .next ∨ ∃ e, r₁ = .error (.error e)))) :=
    ha.firstDone hallow (by rw [hfirst]; rfl)
  cases h with
  | answered hrun =>
    obtain ⟨es', hes, ⟨-, hasked, l, hmem⟩ | ⟨-, hnext | ⟨e, he⟩⟩⟩ := hrespond hrun
    · obtain ⟨t', verdict, hmem', hyes⟩ := hallow
      refine ⟨es', t.responded, hasked, .responded ⟨t', verdict, hes.subset hmem', hyes⟩ hmem ?_ hd.1 hd.2
        rfl⟩
      exact ⟨congrArg (fun request => { request with transaction := some t.responded }) hw.1, hw.2⟩
    · cases hnext
    · cases he
  | unsupported hrun =>
    obtain ⟨es', hes, ⟨hdone, -⟩ | ⟨hasked, -⟩⟩ := hrespond hrun
    · cases hdone
    · exact ⟨es', t, hasked, (hv.before hes rfl rfl).failed hw⟩
  | failed hrun =>
    obtain ⟨es', hes, ⟨hdone, -⟩ | ⟨hasked, hnext | ⟨e, he⟩⟩⟩ := hrespond hrun
    · cases hdone
    · cases hnext
    · cases he
      exact ⟨es', t, hasked, (hv.before hes rfl rfl).failed hw⟩

theorem Granting.asked {host : σ} {fields : Params} {r : Except Fault Outcome}
    (ha : Asked s c v es ⟨v.response, host⟩
      { t with decision := some (.withFields true fields), phase := .decided })
    (hv : Vetted es t) (hundecided : t.decision = none) (hallow : Inquiry.Decided true es)
    (hfirst : es.filterMap Inquiry.responder? = [])
    (h : Granting s t fields c.completion (v.withHost host) r w) :
    ∃ es' t', Asked s c v es' w.reply t' ∧ Ended s c v es' t' r w := by
  have hresponding : ∀ {t' r₁}, t.decide (.withFields true fields) = .ok t' →
      Responding s c.completion t' (s.tally (·.countDecision true) ((v.withHost host).holding t')) r₁ w →
      ∃ es' t', Asked s c v es' w.reply t' ∧ Ended s c v es' t' (r₁.map fun _ => .responded) w := by
    intro t' r₁ hdecide hresponding
    have ht' := Transaction.decide_eq hdecide
    rw [← ht'] at ha
    refine hresponding.asked (d := .withFields true fields) ?_ (hv.before (List.prefix_refl _) (by rw [ht'])
      (by rw [ht'])) hallow ⟨by rw [ht'], rfl⟩ hfirst ⟨?_, ?_⟩
    · simpa [Visit.reply, Visit.holding, Visit.withHost] using ha
    · rw [tally_request]
      rfl
    · rw [tally_memories]
      rfl
  cases h with
  | decided hdecide => simp [Transaction.decide, hundecided] at hdecide
  | responded hdecide hok => exact hresponding hdecide hok
  | failed hdecide herror => exact hresponding hdecide herror

/-! ## The whole -/

theorem Trying.asked (hs : s.StandardStore) {host : σ} {i : Immediate σ} {r : Except Fault Outcome}
    (ha : Asked s c v es ⟨v.response, host⟩ t) (hintroduced : Introduced es t) (hi : c.immediate = some i)
    (h : Trying s i c.completion t (v.withHost host) r w) :
    ∃ es' t', Asked s c v es' w.reply t' ∧ Ended s c v es' t' r w := by
  have hidentified := hintroduced.vetted.identified
  have hbefore : ∀ a, es <+: es ++ [.immediate t a] := fun a => List.prefix_append _ _
  cases h with
  | failed hrun =>
    obtain ⟨f, hrun⟩ := Step.run_of_guarded_error hrun
    have hasked := ha.immediate hidentified hintroduced.unasked hi hrun
    exact ⟨_, _, hasked, (hintroduced.vetted.before (hbefore _) rfl rfl).failed ⟨rfl, rfl⟩⟩
  | @granted verdict host' _ _ hrun hyes hgranting =>
    have hasked := ha.immediate hidentified hintroduced.unasked hi (Step.run_of_guarded_ok hrun)
    simp only [Inquiry.shape, hyes, if_true] at hasked
    refine Granting.asked (v := v) hasked (hintroduced.vetted.before (hbefore _) rfl rfl)
      hintroduced.undecided ⟨t, verdict, by simp, hyes⟩ ?_ hgranting
    rw [List.filterMap_append, hintroduced.unanswered]
    rfl
  | @deferred verdict host' _ _ hrun hno hsuspending =>
    have hasked := ha.immediate hidentified hintroduced.unasked hi (Step.run_of_guarded_ok hrun)
    simp only [Inquiry.shape, hno] at hasked
    have hdefer : ¬ Inquiry.Decided true (es ++ [.immediate t (.ok verdict)]) := by
      rintro ⟨t', verdict', hmem, hyes⟩
      rcases List.mem_append.1 hmem with hmem | hmem
      · exact hintroduced.unasked _ _ hmem
      · cases List.mem_singleton.1 hmem
        rw [hno] at hyes
        cases hyes
    obtain ⟨es', hasked', hended⟩ := Suspending.asked (v := v) hs hasked
      (hintroduced.vetted.before (hbefore _) rfl rfl) hintroduced.undecided hdefer
      (.inr ⟨t, verdict, by simp, hno⟩) hsuspending
    exact ⟨es', _, hasked', hended⟩

theorem runAuthorization_ended (hs : s.StandardStore) {r : Except Fault Outcome}
    (h : (s.runAuthorization c).run v = (r, w)) :
    ∃ es t, Asked s c v es w.reply t ∧ Ended s c v es t r w := by
  have hintroduced : ∀ {t t' : Transaction} {v₁ v₂ : Visit σ}, s.newTransaction.run v = (.ok t, v₁) →
      Validating c t v₁ (.ok t') v₂ → ∃ es host, v₂ = v.withHost host ∧
        Asked s c v es ⟨v.response, host⟩ t' ∧ Introduced es t' := by
    intro t t' v₁ v₂ hnew hvalidating
    obtain ⟨es, _, host, rfl, ha, honly, ⟨hok, hopen, hrecognized⟩ | ⟨_, he, -⟩⟩ :=
      newTransaction_asked (c := c) hnew
    · cases hok
      obtain ⟨es', _, hasked, ⟨hok, hintroduced, host', rfl⟩ | ⟨_, he, -⟩⟩ :=
        hvalidating.asked ha honly hrecognized hopen
      · cases hok
        exact ⟨es', host', rfl, hasked, hintroduced⟩
      · cases he
    · cases he
  cases runAuthorization_cases h with
  | refused hnew =>
    obtain ⟨es, t, host, rfl, ha, honly, ⟨hok, -⟩ | ⟨e, he, hwhy⟩⟩ := newTransaction_asked (c := c) hnew
    · cases hok
    · cases he
      exact ⟨es, t, ha, .unvalidated hwhy honly.not_examined rfl ⟨rfl, rfl⟩⟩
  | invalid hnew hvalidating =>
    obtain ⟨es, _, host, rfl, ha, honly, ⟨hok, hopen, hrecognized⟩ | ⟨_, he, -⟩⟩ :=
      newTransaction_asked (c := c) hnew
    · cases hok
      obtain ⟨es', t', hasked, ⟨hok, -⟩ | ⟨_, he, hended⟩⟩ :=
        hvalidating.asked ha honly hrecognized hopen
      · cases hok
      · cases he
        exact ⟨es', t', hasked, hended⟩
    · cases he
  | asked hnew hvalidating hnone hsuspending =>
    obtain ⟨es, host, rfl, ha, hintroduced⟩ := hintroduced hnew hvalidating
    obtain ⟨es', hasked, hended⟩ := hsuspending.asked hs ha hintroduced.vetted hintroduced.undecided
      (fun ⟨t', verdict, hmem, _⟩ => hintroduced.unasked _ _ hmem) (.inl hnone)
    exact ⟨es', _, hasked, hended⟩
  | tried hnew hvalidating hi htrying =>
    obtain ⟨es, host, rfl, ha, hintroduced⟩ := hintroduced hnew hvalidating
    exact htrying.asked hs ha hintroduced hi

theorem Ended.withMetrics {r : Except Fault Outcome} (h : Ended s c v es t r w) (m : Metrics) :
    Ended s c v es t r (w.withMetrics m) := by
  cases h with
  | pending hr hwhy hstored ht hclient hundecided =>
    exact .pending hr hwhy (hstored.congr rfl rfl rfl) ht hclient hundecided
  | responded hallow hdone hholds hd hyes hphase =>
    exact .responded hallow hdone hholds hd hyes hphase
  | unvalidated hwhy hexamined hr hholds => exact .unvalidated hwhy hexamined hr hholds
  | failed hmem huri hholds => exact .failed hmem huri hholds

/-- An authorization asks its callbacks in order, and ends in one of three complete states. -/
theorem authorize_ended (hs : s.StandardStore) {r : Except Fault Outcome}
    (h : (s.authorize c).run v = (r, w)) :
    ∃ es t, Asked s c v es w.reply t ∧ Ended s c v es t r w := by
  obtain ⟨v₁, m, hrun, rfl⟩ := counted_cases h
  obtain ⟨es, t, ha, hended⟩ := runAuthorization_ended hs hrun
  exact ⟨es, t, ha, hended.withMetrics m⟩

theorem asking_ended :
    ∃ es t, Asked (plain .session) trusting asking es
        (((plain .session).authorize trusting).run asking).2.reply t ∧
      Ended (plain .session) trusting asking es t (.ok (.pending "0000000000000000"))
        (((plain .session).authorize trusting).run asking).2 :=
  authorize_ended (.inl rfl) rfl

end Server

end AuthServer

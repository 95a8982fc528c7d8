import AuthServer.Proofs.Endpoint.Token
import AuthServer.Proofs.Site.Waiting

/-!
# The code book

A code is put in the book when the resource owner allows a transaction that asked
for one, and taken out when it is handed in, whether tokens are given for it or
not. Nothing else touches the book.
-/

namespace AuthServer

open Json

/-! ## Statuses of refusals -/

theorem EndpointKind.status_of_optional {name : String} {v : Option Value} {e : OAuthError}
    (h : token.optional name v = .error e) : e.status = 400 := by
  rcases v with _ | (_ | _ | _ | _ | _ | _ | _) <;> cases h <;> rfl

theorem EndpointKind.status_of_required {name : String} {v : Option Value} {e : OAuthError}
    (h : token.required name v = .error e) : e.status = 400 := by
  unfold required at h
  rcases ho : token.optional name v with f | o <;> rw [ho] at h
  · cases h
    exact status_of_optional ho
  · simp only [bind, Except.bind] at h
    split at h <;> cases h
    rfl

/-- A request to exchange a code that cannot be read is refused; one that can be gives the texts of
its parameters. -/
theorem Exchange.CodeRequest.read_cases {o : Options} {req : Request} {body : Params}
    (hbody : req.body = some body) :
    (∃ e, CodeRequest.read o req body = .error e ∧ e.status = 400) ∨
      ∃ code, req.bodyText? "code" = some code ∧ CodeRequest.read o req body =
        .ok ⟨req.principal? o.userProperty, code, req.bodyText? "redirect_uri", body⟩ := by
  have htext : ∀ name, req.bodyText? name = (body.value? name).bind Value.asString? := by
    intro name
    unfold Request.bodyText? Request.bodyValue?
    rw [hbody]
    rfl
  unfold CodeRequest.read
  rcases hcode : EndpointKind.token.required "code" (body.value? "code") with e | code
  · exact .inl ⟨e, rfl, EndpointKind.status_of_required hcode⟩
  rcases huri : EndpointKind.token.optional "redirect_uri" (body.value? "redirect_uri") with e | uri
  · exact .inl ⟨e, rfl, EndpointKind.status_of_optional huri⟩
  refine .inr ⟨code, ?_, ?_⟩
  · rw [htext]
    exact (EndpointKind.of_required hcode).1
  · rw [htext, ← EndpointKind.eq_of_optional huri]
    rfl

namespace Site

namespace Issuer

variable {host : Issuer}

/-! ## The callbacks -/

/-- What is noted beside a code. -/
def granted (c : Grant.IssueContext) (clientId : String) : GrantedCode :=
  ⟨clientId, c.redirectUri, c.user, scopeOf c⟩

/-- A code is given out to a client with an id, and put in the book. -/
theorem issueCode_cases {c : Grant.IssueContext} {host host' : Issuer}
    {r : Except Fault (Option String)} (h : (issueCode c).run host = (r, host')) :
    r = .ok none ∧ host' = host ∨
      ∃ clientId, clientIdOf c.client = some clientId ∧ r = .ok (some host.nextCode) ∧
        host' = ⟨host.codes.put host.nextCode (granted c clientId),
          host.tokens.skip Supply.tokenLength⟩ := by
  unfold issueCode at h
  rcases hclient : clientIdOf c.client with _ | clientId <;> rw [hclient] at h <;> cases h
  · exact .inl ⟨rfl, rfl⟩
  · exact .inr ⟨clientId, rfl, rfl, rfl⟩

theorem codes_issueToken (c : Grant.IssueContext) (host : Issuer) :
    ((issueToken c).run host).2.codes = host.codes := by
  unfold issueToken
  cases c.client.isNone <;> rfl

theorem codes_exchangeCredentials (r : Exchange.ClientRequest) (host : Issuer) :
    ((exchangeCredentials r).run host).2.codes = host.codes := by
  unfold exchangeCredentials
  cases r.client.isNone <;> rfl

/-- How a code that is handed in ends: it is out of the book in any case. -/
inductive Taking (r : Exchange.CodeRequest) (host : Issuer) : Except Fault (Option Issued) → Issuer → Prop where
  | refused : Taking r host (.ok none) { host with codes := host.codes.remove r.code }
  | given {g : GrantedCode} {token refresh : String} {tokens : Supply} :
    host.codes.value? r.code = some g → matchesCode r g = true →
    Taking r host (.ok (some ⟨token, some refresh, tokenParams g.scope⟩))
      ⟨host.codes.remove r.code, tokens⟩

theorem exchangeCode_cases {r : Exchange.CodeRequest} {host host' : Issuer}
    {result : Except Fault (Option Issued)} (h : (exchangeCode r).run host = (result, host')) :
    Taking r host result host' := by
  have htake : (take r.code).run host =
      (.ok (host.codes.value? r.code), { host with codes := host.codes.remove r.code }) := rfl
  unfold exchangeCode at h
  rw [Step.run_bind, htake] at h
  rcases hg : host.codes.value? r.code with _ | g <;> simp only [hg] at h
  · cases h
    exact .refused
  · by_cases hmatches : matchesCode r g = true
    · rw [if_pos hmatches] at h
      cases h
      exact .given hg hmatches
    · rw [if_neg hmatches] at h
      cases h
      exact .refused

theorem of_matchesCode {r : Exchange.CodeRequest} {g : GrantedCode} (h : matchesCode r g = true) :
    clientIdOf r.client = some g.clientId ∧
      ∀ uri, r.redirectUri = some uri → g.redirectUri = some uri := by
  obtain ⟨hclient, huri⟩ : clientIdOf r.client = some g.clientId ∧
      (r.redirectUri = none ∨ r.redirectUri = g.redirectUri) := by simpa [matchesCode] using h
  refine ⟨hclient, fun uri hr => ?_⟩
  rcases huri with hnone | hsame
  · rw [hnone] at hr
    cases hr
  · rw [← hsame, hr]

end Issuer

namespace App

variable {a : App}

/-! ## Answers -/

/-- An answer to `t` leaves the code book alone, or puts the next code in it and sends it. -/
inductive Booking (t : Transaction) (reply : Reply Issuer) : Except Fault Flow → Reply Issuer → Prop where
  | kept {r : Except Fault Flow} {reply' : Reply Issuer} :
    reply'.host.codes = reply.host.codes → Booking t reply r reply'
  | issued {c : Grant.IssueContext} {clientId uri : String} {place : String → Params → String} :
    t.request.type.tokens = ["code"] → Grant.IssueContext.ofTransaction t = .ok c →
    c.decision.allow = true → Issuer.clientIdOf t.client = some clientId →
    t.redirectUri = some uri → Redirect.Placing place →
    Booking t reply (.ok .done)
      ⟨reply.response.redirect
          (place uri (Grant.withState (Grant.codeParams reply.host.nextCode) t)),
        ⟨reply.host.codes.put reply.host.nextCode (Issuer.granted c clientId),
          reply.host.tokens.skip Supply.tokenLength⟩⟩

section Booking

variable {t : Transaction} {reply reply' : Reply Issuer} {r : Except Fault Flow}

theorem Booking.guarded (h : Booking t reply r reply') :
    Booking t reply (r.mapError fun e => .error e.report) reply' := by
  cases h with
  | kept hcodes => exact .kept hcodes
  | issued htype hc hallow hclient huri hplace => exact .issued htype hc hallow hclient huri hplace

theorem client_of_context {c : Grant.IssueContext}
    (h : Grant.IssueContext.ofTransaction t = .ok c) : c.client = t.client := by
  unfold Grant.IssueContext.ofTransaction at h
  split at h <;> cases h
  rfl

theorem booking_code (htype : t.request.type.tokens = ["code"])
    (h : (Grant.responder .standard "query" Issuer.issueCode Grant.codeParams t .none).run reply =
      (r, reply')) : Booking t reply r reply' := by
  cases Grant.responder_cases ResponseModes.standard_builtIn h with
  | refused => exact .kept rfl
  | denied => exact .kept rfl
  | failed _ _ hissue =>
    obtain ⟨hr, -⟩ | ⟨_, _, hr, -⟩ := Issuer.issueCode_cases hissue <;> cases hr
  | withheld _ _ hissue =>
    obtain ⟨-, rfl⟩ | ⟨_, _, hr, -⟩ := Issuer.issueCode_cases hissue
    · exact .kept rfl
    · cases hr
  | incomplete _ _ _ hcomplete => cases hcomplete
  | issued hc hallow hissue hcomplete huri hplace =>
    cases hcomplete
    obtain ⟨hr, -⟩ | ⟨clientId, hclient, hr, rfl⟩ := Issuer.issueCode_cases hissue <;> cases hr
    exact .issued htype hc hallow (client_of_context hc ▸ hclient) huri hplace

theorem booking_token
    (h : (Grant.responder .standard "fragment" Issuer.issueToken Grant.tokenParams t .none).run reply =
      (r, reply')) : Booking t reply r reply' := by
  have hcodes : ∀ {c : Grant.IssueContext} {r : Except Fault (Option Issued)} {host : Issuer},
      (Issuer.issueToken c).run reply.host = (r, host) → host.codes = reply.host.codes := by
    intro c r host hissue
    rw [← Issuer.codes_issueToken c reply.host, hissue]
  cases Grant.responder_cases ResponseModes.standard_builtIn h with
  | refused => exact .kept rfl
  | denied => exact .kept rfl
  | failed _ _ hissue => exact .kept (hcodes hissue)
  | withheld _ _ hissue => exact .kept (hcodes hissue)
  | incomplete _ _ _ hcomplete => cases hcomplete
  | issued _ _ hissue hcomplete =>
    cases hcomplete
    exact .kept (hcodes hissue)

theorem respond_booking (ha : a.Installed)
    (h : (a.server.dispatcher.respond t .none).run reply = (r, reply')) : Booking t reply r reply' := by
  unfold Dispatcher.respond at h
  rw [ha.responders] at h
  rcases Layer.applicable_cases
      (Grant.responder .standard "query" Issuer.issueCode Grant.codeParams)
      (Grant.responder .standard "fragment" Issuer.issueToken Grant.tokenParams)
      t.request.type with ⟨htype, hl⟩ | ⟨-, hl⟩ | hl <;> rw [hl] at h
  · rw [List.map_singleton, Dispatcher.firstDone_singleton, Step.run_guarded] at h
    cases h
    exact (booking_code htype rfl).guarded
  · rw [List.map_singleton, Dispatcher.firstDone_singleton, Step.run_guarded] at h
    cases h
    exact (booking_token rfl).guarded
  · cases h
    exact .kept rfl

end Booking

/-! ## Exchanges -/

/-- A request to exchange a code takes the code out of the book, unless it cannot be read. It is
answered when the book has the code for this client, and for this URI if one is named. -/
inductive Handing (request : Request) (reply : Reply Issuer) :
    Except Fault Flow → Reply Issuer → Prop where
  | unread {e : OAuthError} :
    OAuthError.httpStatus e.status ≠ 200 → Handing request reply (.error (.error e)) reply
  | refused {e : OAuthError} {code : String} :
    OAuthError.httpStatus e.status ≠ 200 → request.bodyText? "code" = some code →
    Handing request reply (.error (.error e))
      { reply with host := { reply.host with codes := reply.host.codes.remove code } }
  | given {code token refresh : String} {g : GrantedCode} {tokens : Supply} :
    request.bodyText? "code" = some code → reply.host.codes.value? code = some g →
    Issuer.clientIdOf request.user = some g.clientId →
    (∀ uri, request.bodyText? "redirect_uri" = some uri → g.redirectUri = some uri) →
    Handing request reply (.ok .done)
      ⟨(Issued.mk token (some refresh) (Issuer.tokenParams g.scope)).write reply.response,
        ⟨reply.host.codes.remove code, tokens⟩⟩

section Exchange

variable {request : Request} {reply reply' : Reply Issuer} {r : Except Fault Flow}

theorem exchangeCode_handing
    (h : (Exchange.authorizationCode .standard Issuer.exchangeCode request).run reply =
      (r, reply')) : Handing request reply r reply' := by
  unfold Exchange.authorizationCode Exchange.issuing at h
  rcases hbody : request.body with _ | body <;> simp only [hbody] at h
  · cases h
    exact .unread (by decide)
  obtain ⟨e, hread, hstatus⟩ | ⟨code, hcode, hread⟩ :=
    Exchange.CodeRequest.read_cases (o := .standard) hbody
  · rw [hread] at h
    cases h
    exact .unread (by rw [hstatus]; decide)
  · rw [hread] at h
    simp only [Step.ofExcept, pure_bind] at h
    obtain ⟨issued, reply₁, hrun, h⟩ | ⟨e, hrun, rfl⟩ := Step.bind_cases h
    · rw [Step.inReply, Step.run_within, Prod.mk.injEq] at hrun
      obtain ⟨hissued, rfl⟩ := hrun
      generalize hhost : ((Issuer.exchangeCode _).run reply.host).2 = host at h
      have htaking := Issuer.exchangeCode_cases (Prod.ext hissued hhost)
      generalize hok : (Except.ok issued : Except Fault (Option Issued)) = result at htaking
      cases htaking with
      | refused =>
        cases hok
        cases h
        exact .refused (by decide) hcode
      | given hg hmatches =>
        cases hok
        cases h
        obtain ⟨hclient, huri⟩ := Issuer.of_matchesCode hmatches
        exact .given hcode hg hclient huri
    · rw [Step.inReply, Step.run_within, Prod.mk.injEq] at hrun
      cases Issuer.exchangeCode_cases (Prod.ext hrun.1 rfl)

theorem Handing.guarded (h : Handing request reply r reply') :
    Handing request reply (r.mapError fun e => .error e.report) reply' := by
  cases h with
  | unread hstatus => exact .unread hstatus
  | refused hstatus hcode => exact .refused hstatus hcode
  | given hcode hg hclient huri => exact .given hcode hg hclient huri

theorem exchange_handing (ha : a.Installed)
    (h : (a.server.dispatcher.exchange (some "authorization_code") request).run reply =
      (r, reply')) : Handing request reply r reply' := by
  unfold Dispatcher.exchange at h
  rw [ha.exchanges] at h
  change (Dispatcher.firstDone
    [Exchange.authorizationCode .standard Issuer.exchangeCode request]).run reply = _ at h
  rw [Dispatcher.firstDone_singleton, Step.run_guarded] at h
  cases h
  exact (exchangeCode_handing rfl).guarded

/-- Other grant types leave the book alone. -/
theorem exchange_keeps_codes (ha : a.Installed) (request : Request) {grantType : Option String}
    (hother : grantType ≠ some "authorization_code") (codes : Entries GrantedCode) :
    (a.server.dispatcher.exchange grantType request).Keeps fun reply => reply.host.codes = codes := by
  unfold Dispatcher.exchange
  rw [ha.exchanges]
  refine Dispatcher.firstDone_keeps fun x hx => ?_
  obtain ⟨l, hl, rfl⟩ := List.mem_map.1 hx
  obtain ⟨hmem, happlies⟩ := List.mem_filter.1 hl
  rcases List.mem_cons.1 hmem with rfl | hmem
  · exact absurd (by simpa [ExchangeLayer.appliesTo] using happlies) hother
  · obtain rfl := List.mem_singleton.1 hmem
    show (Exchange.issuing _ _ Issuer.exchangeCredentials request).Keeps _
    unfold Exchange.issuing
    rcases request.body with _ | body
    · exact Step.keeps_fail _
    · refine (Step.keeps_ofExcept _).bind fun r => Step.Keeps.bind ?_ fun issued => ?_
      · exact fun reply hcodes => (Issuer.codes_exchangeCredentials r reply.host).trans hcodes
      · cases issued with
        | none => exact Step.keeps_fail _
        | some issued =>
          have hwrite : (Step.onResponse issued.write : Step (Reply Issuer) Unit).Keeps
              fun reply => reply.host.codes = codes := fun _ hcodes => hcodes
          exact hwrite.bind fun _ => Step.keeps_pure _

end Exchange

end App

end Site

end AuthServer

import AuthServer.Proofs.Consenting
import AuthServer.Proofs.Site.Installed
import AuthServer.Proofs.Site.Turns

/-!
# Transactions that wait for the resource owner

What the site suspends is a transaction of a listed client at one of its URIs,
with the scope that was asked for. It is made of texts alone, so its record
comes back from the session as it was written.
-/

namespace AuthServer

open Json Store Grant

/-! ## The fields of a request -/

theorem EndpointKind.eq_of_optional {e : EndpointKind} {name : String} {v : Option Value}
    {o : Option String} (h : e.optional name v = .ok o) : o = v.bind Value.asString? := by
  rcases v with _ | (_ | _ | _ | _ | _ | _ | _) <;> cases h <;> rfl

theorem EndpointKind.of_required {e : EndpointKind} {name s : String} {v : Option Value}
    (h : e.required name v = .ok s) : v.bind Value.asString? = some s ∧ s ≠ "" := by
  unfold required at h
  rcases ho : e.optional name v with f | o <;> rw [ho] at h
  · cases h
  · rw [← eq_of_optional ho]
    simp only [bind, Except.bind] at h
    split at h
    · rename_i s' hfilter
      cases h
      obtain ⟨hsome, hne⟩ := Option.filter_eq_some_iff.1 hfilter
      exact ⟨hsome, by simpa using hne⟩
    · cases h

theorem EndpointKind.eq_of_scope {e : EndpointKind} {separators : List String} {v : Option Value}
    {scope : Option (List String)} (h : e.scope separators v = .ok scope) :
    scope = (v.bind Value.asString?).map (splitScope separators) := by
  unfold EndpointKind.scope at h
  rcases ho : e.optional "scope" v with f | o <;> rw [ho] at h <;> cases h
  rw [eq_of_optional ho]

namespace Grant

/-- The fields that a redirecting grant makes of a request. -/
def requestFields (clientId : String) (redirectUri : Option String) (scope : Option (List String))
    (state mode : Option String) : Params :=
  ("client_id", .str clientId) :: field "redirect_uri" .str redirectUri ++
    field "scope" .ofStrings scope ++ field "state" .str state ++ field "response_mode" .str mode

theorem readFields_cases {separators : List String} {req : Request} {fields : Params}
    (h : readFields separators req = .ok fields) :
    ∃ clientId redirectUri state mode, req.text? "client_id" = some clientId ∧
      fields = requestFields clientId redirectUri
        ((req.text? "scope").map (splitScope separators)) state mode := by
  unfold readFields at h
  rcases hclient : EndpointKind.authorization.required "client_id" (req.param? "client_id")
    with e | clientId <;> simp only [hclient] at h
  · cases h
  rcases huri : EndpointKind.authorization.optional "redirect_uri" (req.param? "redirect_uri")
    with e | redirectUri <;> simp only [huri] at h
  · cases h
  rcases hscope : EndpointKind.authorization.scope separators (req.param? "scope")
    with e | scope <;> simp only [hscope] at h
  · cases h
  rcases hstate : EndpointKind.authorization.optional "state" (req.param? "state")
    with e | state <;> simp only [hstate] at h
  · cases h
  rcases hmode : EndpointKind.authorization.optional "response_mode" (req.param? "response_mode")
    with e | mode <;> simp only [hmode] at h
  · cases h
  cases h
  refine ⟨clientId, redirectUri, state, mode, (EndpointKind.of_required hclient).1, ?_⟩
  rw [EndpointKind.eq_of_scope hscope]
  rfl

section Fields

variable (clientId : String) (redirectUri : Option String) (scope : Option (List String))
  (state mode : Option String)

/-- Merging into an empty request takes the fields as they are. -/
theorem merge_requestFields (type : TypeSet) :
    (AuthorizationRequest.ofType type).merge (requestFields clientId redirectUri scope state mode) =
      ⟨type, requestFields clientId redirectUri scope state mode⟩ := by
  cases redirectUri <;> cases scope <;> cases state <;> cases mode <;> rfl

theorem untyped_requestFields :
    "type" ∉ (requestFields clientId redirectUri scope state mode).keys := by
  cases redirectUri <;> cases scope <;> cases state <;> cases mode <;>
    simp [requestFields, field, Entries.keys]

theorem scopeOf_requestFields :
    scopeOf ((requestFields clientId redirectUri scope state mode).value? "scope") = scope := by
  have hvalue : (requestFields clientId redirectUri scope state mode).value? "scope" =
      scope.map Value.ofStrings := by
    cases redirectUri <;> cases scope <;> cases state <;> cases mode <;> rfl
  have htexts : Value.asString? ∘ Value.str = some := rfl
  rw [hvalue]
  cases scope with
  | none => rfl
  | some scope =>
    show some ((scope.map Value.str).filterMap Value.asString?) = some scope
    rw [List.filterMap_map, htexts, List.filterMap_some]

theorem rereadItems_texts (texts : List String) :
    Value.reread.rereadItems (texts.map .str) = texts.map .str := by
  induction texts with
  | nil => rfl
  | cons text rest ih =>
    rw [List.map_cons, Value.reread.rereadItems, ih]
    rfl

theorem reread_requestFields :
    Value.reread.rereadMembers (requestFields clientId redirectUri scope state mode) =
      requestFields clientId redirectUri scope state mode := by
  cases redirectUri <;> cases scope <;> cases state <;> cases mode <;>
    simp [requestFields, field, Value.reread.rereadMembers, Value.reread, Value.ofStrings,
      rereadItems_texts]

end Fields

end Grant

namespace Site

/-! ## Suspended transactions -/

/-- The record of a transaction of the client. -/
def Client.record (c : Client) (t : Transaction) : Value :=
  { t with id := none, client := some (.str c.id) }.toValue

namespace App

/-- `t` is what the site makes of the request of client `c`, to be answered at `uri`. -/
structure Applied (a : App) (request : Request) (c : Client) (uri : String) (t : Transaction) : Prop where
  named : request.text? "client_id" = some c.id
  listed : a.clients.value? c.id = some c
  client : t.client = some c.toValue
  redirectUri : t.redirectUri = some uri
  registered : uri ∈ c.redirectUris
  scope : t.request.scope = (request.text? "scope").map (splitScope standardSeparators)
  unstored : t.Unstored
  stable : (c.record t).reread = c.record t

variable {a : App} {h : Turn} {request : Request} {id : String} {t : Transaction}

theorem parse_cases (ha : a.Installed) {type : TypeSet} {parsed : Parsed} {host host' : Issuer}
    (h : (a.server.dispatcher.parse type request).run host = (.ok parsed, host')) :
    parsed.request = .ofType type ∨
      ∃ clientId redirectUri state mode, request.text? "client_id" = some clientId ∧
        parsed.request = ⟨type, requestFields clientId redirectUri
          ((request.text? "scope").map (splitScope standardSeparators)) state mode⟩ := by
  unfold Dispatcher.parse at h
  rw [ha.parsers] at h
  have hone : ∀ {w : String}, (Dispatcher.parseWith request
      [Layer.ofType w (Grant.parser standardSeparators)] ⟨.ofType type, false⟩).run host =
        (.ok parsed, host') →
      ∃ clientId redirectUri state mode, request.text? "client_id" = some clientId ∧
        parsed.request = ⟨type, requestFields clientId redirectUri
          ((request.text? "scope").map (splitScope standardSeparators)) state mode⟩ := by
    intro w h
    rcases Step.bind_cases h with ⟨fields, host₁, hfields, h⟩ | ⟨_, _, he⟩
    · cases h
      show ∃ clientId redirectUri state mode, _ ∧ (AuthorizationRequest.ofType type).merge fields = _
      rw [Step.run_guarded] at hfields
      rcases hread : readFields standardSeparators request with e | fields' <;>
        simp only [Layer.ofType, Grant.parser, hread] at hfields <;> cases hfields
      obtain ⟨clientId, redirectUri, state, mode, hclient, rfl⟩ := readFields_cases hread
      exact ⟨clientId, redirectUri, state, mode, hclient, merge_requestFields ..⟩
    · cases he
  rcases Layer.applicable_cases (Grant.parser (σ := Issuer) standardSeparators)
    (Grant.parser standardSeparators) type with ⟨-, hl⟩ | ⟨-, hl⟩ | hl <;> rw [hl] at h
  · exact .inr (hone h)
  · exact .inr (hone h)
  · cases h
    exact .inl rfl

theorem eq_of_read {r : HttpRequest} (h : r.read = .ok request) :
    ∃ query body, request = { Request.empty with query, body } := by
  unfold HttpRequest.read at h
  rcases hquery : r.queryParams with e | query <;> rw [hquery] at h
  · cases h
  rcases hbody : r.bodyParams with e | body <;> rw [hbody] at h <;> cases h
  exact ⟨query, body, rfl⟩

/-- The principal of a transaction is the resource owner, or nobody. -/
theorem principal_arrival (hread : h.request.read = .ok request) (property : String) :
    (a.arrival h request).request.principal? property =
      if property = "user" then some owner else none := by
  obtain ⟨query, body, rfl⟩ := eq_of_read hread
  rfl

theorem stable_record {c : Client} {uri : String} {type : TypeSet} {clientId : String}
    {redirectUri : Option String} {scope : Option (List String)} {state mode : Option String}
    {user : Option Value} (huser : user = some owner ∨ user = none) :
    (c.record ({ Transaction.ofRequest ⟨type, requestFields clientId redirectUri scope state mode⟩ with
      user }.validated (some c.toValue) (some uri) none)).reread =
      c.record ({ Transaction.ofRequest ⟨type, requestFields clientId redirectUri scope state mode⟩ with
        user }.validated (some c.toValue) (some uri) none) := by
  have hfields := reread_requestFields clientId redirectUri scope state mode
  rcases huser with rfl | rfl <;>
    simp [Client.record, Transaction.toValue, Transaction.members, Transaction.optional,
      Transaction.validated, Transaction.ofRequest, AuthorizationRequest.members, owner, Value.reread,
      Value.reread.rereadMembers, hfields]

/-- What is validated is the request of a listed client, at one of its URIs. -/
theorem validate_cases {r : AuthorizationRequest} {validated : Validated} {host host' : Issuer}
    {client : Value}
    (h : ((a.clients.validate : Validate Issuer) r).guarded.run host = (.ok validated, host'))
    (hclient : validated.client = some client) :
    ∃ id c uri, r.clientId = some id ∧ a.clients.value? id = some c ∧ uri ∈ c.redirectUris ∧
      client = c.toValue ∧ validated.redirectUri = some uri ∧ validated.webOrigin = none := by
  rw [Step.run_guarded] at h
  simp only [Directory.validate, Validate.ofClient] at h
  rcases hid : r.clientId with _ | id
  · simp only [hid, Option.bind_none] at h
    cases h
    cases hclient
  rcases hc : a.clients.value? id with _ | c
  · simp only [hid, Option.bind_some, hc] at h
    cases h
    cases hclient
  simp only [hid, Option.bind_some, hc] at h
  rcases huri : Directory.redirectUri c r.redirectUri with e | uri <;> rw [huri] at h <;> cases h
  cases hclient
  refine ⟨id, c, uri, rfl, hc, ?_, rfl, rfl, rfl⟩
  unfold Directory.redirectUri at huri
  split at huri
  · split at huri <;> cases huri
    rename_i hcontains
    simpa using hcontains
  · split at huri <;> cases huri
    rename_i hhead
    exact List.mem_of_head? hhead

theorem applied_of_validated (ha : a.Installed) (hread : h.request.read = .ok request)
    {type : TypeSet} {parsed : Parsed} {validated : Validated} {client : Value}
    {host host' host₁ host₁' : Issuer}
    (htype : Server.responseType (a.arrival h request).request = .ok type)
    (hparse : (a.server.dispatcher.parse type (a.arrival h request).request).run host =
      (.ok parsed, host'))
    (hvalidate : ((a.clients.validate : Validate Issuer) parsed.request).guarded.run host₁ =
      (.ok validated, host₁'))
    (hclient : validated.client = some client) :
    ∃ c uri, a.Applied request c uri
      (({ Transaction.ofRequest parsed.request with
        user := (a.arrival h request).request.principal? a.server.options.userProperty }.validated
          (some client) validated.redirectUri validated.webOrigin).mergeLocals none) := by
  obtain ⟨id, c, uri, hid, hlisted, hmem, rfl, huri, horigin⟩ := validate_cases hvalidate hclient
  obtain hparsed | ⟨clientId, redirectUri, state, mode, htext, hparsed⟩ := parse_cases ha hparse
  · rw [hparsed] at hid
    cases hid
  obtain rfl : clientId = id := by
    rw [hparsed] at hid
    cases hid
    rfl
  obtain rfl := ha.keyed _ _ hlisted
  have huser : (a.arrival h request).request.principal? a.server.options.userProperty = some owner ∨
      (a.arrival h request).request.principal? a.server.options.userProperty = none := by
    rw [principal_arrival hread]
    split
    · exact .inl rfl
    · exact .inr rfl
  rw [huri, horigin, hparsed]
  refine ⟨c, uri, htext, hlisted, rfl, rfl, hmem, scopeOf_requestFields .., ?_, stable_record huser⟩
  refine ⟨rfl, rfl, rfl, rfl, ⟨Server.responseType_isWord htype, untyped_requestFields _ _ _ _ _, ?_, rfl⟩⟩
  intro hnull
  rcases huser with hu | hu <;> cases hu.symm.trans hnull

theorem applied_of_prepare (ha : a.Installed) (hread : h.request.read = .ok request)
    {v : Visit Issuer}
    (hprepare : (a.server.prepare a.clients.validate).run (a.arrival h request) = (.ok t, v)) :
    ∃ c uri, a.Applied request c uri t := by
  obtain ⟨t₁, v₁, hn, hv⟩ | ⟨_, _, hr⟩ := Step.bind_cases hprepare
  · have hbegun := Server.newTransaction_cases hn
    have hvalidating := Server.validateClient_cases hv
    generalize hr₁ : (Except.ok t₁ : Except Fault Transaction) = r₁ at hbegun
    generalize hr : (Except.ok t : Except Fault Transaction) = r at hvalidating
    cases hbegun with
    | refused => cases hr₁
    | begun htype hparse =>
      cases hr₁
      cases hvalidating with
      | failed => cases hr
      | unauthorized => cases hr
      | passed hvalidate hclient =>
        cases hr
        exact applied_of_validated ha hread htype hparse hvalidate hclient
  · cases hr

/-- What waits after a request is what the site made of it, under the id that the store gave. -/
theorem Asks.applied (hasks : a.Asks h request id t) (ha : a.Installed) :
    ∃ c uri t₀, a.Applied request c uri t₀ ∧ t = t₀.persisted id := by
  obtain ⟨v, hrun, ht⟩ := hasks.pending
  obtain ⟨v₁, m, hx, rfl⟩ := Server.counted_cases hrun
  rw [Server.runAuthorization_eq] at hx
  rcases Step.bind_cases hx with ⟨t₀, v₀, hprepare, hsuspend⟩ | ⟨_, _, hr⟩
  · obtain ⟨c, uri, happlied⟩ := applied_of_prepare ha hasks.reads hprepare
    cases Server.suspend_cases hsuspend with
    | stored =>
      simp only [Visit.withMetrics, Server.tally_request] at ht
      cases ht
      exact ⟨c, uri, t₀, happlied, rfl⟩
  · cases hr

end App

end Site

end AuthServer

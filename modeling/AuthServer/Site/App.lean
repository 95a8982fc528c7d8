import AuthServer.Config.Basic
import AuthServer.Endpoint.Decision
import AuthServer.Endpoint.Error
import AuthServer.Endpoint.Authorization
import AuthServer.Endpoint.Loading
import AuthServer.Endpoint.Token
import AuthServer.Site.ConsentPage
import AuthServer.Site.HostSession
import AuthServer.Site.Issuing

/-!
# The site

An authorization server with a directory of clients, a code book and one
resource owner who is always logged in. Errors of the authorization side go
to the client if its grant can tell it, and to the error renderer otherwise;
errors of the token side are always rendered as JSON.
-/

namespace AuthServer.Site

open Json

structure App where
  config : Config
  clients : Directory
  server : Server Issuer

/-- A request in work: the visit, and the host's session. -/
structure Work where
  visit : Visit Issuer
  session : HostSession

namespace App

def ofConfig (config : Config) (clients : Directory) : Except OAuthError App := do
  let store ← Store.ofConfig 0 config
  let server := { Server.ofStore store with options := config.transactions, metered := true }
  let server ← Issuer.install server Issuer.standardGrants Issuer.standardExchanges
  let server := (server.addClientWriter Directory.writeId).addClientReader clients.readId
  return ⟨config, clients, server⟩

/-- The resource owner. -/
def owner : Value := .obj [("id", .str "demo-user"), ("name", .str "Demo User")]

variable (a : App)

def sessionKey : String := a.config.transactions.sessionKey

def errors : ErrorRenderer Issuer := .ofOptions a.config.errorOptions

def tokenErrors : ErrorRenderer Issuer := .ofOptions .standard

/-! ## Steps on the work -/

def onVisit {α : Type} (x : Step (Visit Issuer) α) : Step Work α :=
  Step.within (·.visit) (fun w visit => { w with visit }) x

def loadSession : Step Work Unit :=
  .modify fun w =>
    { w with visit := { w.visit with request := w.session.load a.sessionKey w.visit.request } }

def saveSession : Step Work Unit :=
  .modify fun w => { w with session := w.session.save a.sessionKey w.visit.request }

/-- Sends the response and saves the session. -/
def finish : Step Work HttpAnswer := do
  let answer ← onVisit send
  a.saveSession
  pure answer

/-- An error that cannot be rendered is the answer itself. -/
def render (renderer : ErrorRenderer Issuer) (e : OAuthError) : Step Work HttpAnswer := do
  match ← (onVisit (renderer.render e)).attempt with
  | .ok _ => a.finish
  | .error f => pure (.ofError f.report)

/-- Lets the grants tell the client first. -/
def fail (e : OAuthError) : Step Work HttpAnswer := do
  match ← (onVisit (a.server.redirectError e)).attempt with
  | .ok _ => a.finish
  | .error f => a.render a.errors f.report

/-- An endpoint call, its error handled. -/
def andThen {α : Type} (x : Step (Visit Issuer) α) (next : α → Step Work HttpAnswer) :
    Step Work HttpAnswer := do
  match ← (onVisit x).attempt with
  | .ok r => next r
  | .error f => a.fail f.report

/-- Reads the request with its session and the resource owner. -/
def withRequest (r : HttpRequest) (next : Step Work HttpAnswer) : Step Work HttpAnswer :=
  match r.read with
  | .error e => a.render a.errors e
  | .ok request => do
    .modify fun w => { w with visit := { w.visit with request } }
    a.loadSession
    .modify fun w =>
      { w with visit := { w.visit with request := { w.visit.request with user := some owner } } }
    next

/-! ## Pages -/

def consentPage (id : String) (t : Option Transaction) : ConsentPage :=
  .ofTransaction t a.config.transactions.field id a.config.decision.cancelField

def authorize (r : HttpRequest) : Step Work HttpAnswer :=
  a.withRequest r
    (a.andThen (a.server.authorize ⟨a.clients.validate, none, .none⟩) fun outcome => do
      match outcome with
      | .pending id =>
        a.saveSession
        Step.gets fun w => (a.consentPage id w.visit.request.transaction).answer
      | .responded => a.finish)

def decision (r : HttpRequest) : Step Work HttpAnswer :=
  a.withRequest r
    (a.andThen a.server.loadTransaction fun _ =>
      a.andThen (a.server.decide a.config.decision ⟨none, .none⟩) fun _ => a.finish)

/-- The client that the body authenticates. -/
def authenticated (request : Request) : Option Client := do
  let id ← request.bodyText? "client_id"
  let secret ← request.bodyText? "client_secret"
  a.clients.authenticate id secret

def authenticationFailed : OAuthError := .token "Client authentication failed" "invalid_client"

def token (r : HttpRequest) : Step Work HttpAnswer :=
  match r.read with
  | .error e => pure (.ofError e)
  | .ok request => do
    .modify fun w => { w with visit := { w.visit with request } }
    match a.authenticated request with
    | none => a.render tokenErrors authenticationFailed
    | some client =>
      .modify fun w =>
        { w with visit := { w.visit with request := { w.visit.request with user := some client.toValue } } }
      match ← (onVisit a.server.token).attempt with
      | .ok _ => a.finish
      | .error f => a.render tokenErrors f.report

def metrics : Step Work HttpAnswer :=
  Step.gets fun w =>
    ⟨200, [("content-type", "text/plain; version=0.0.4")], w.visit.world.metrics.exposition⟩

def health : HttpAnswer :=
  ⟨200, [("content-type", "application/json")], paramsText [("status", .str "ok")]⟩

def notFound : HttpAnswer := ⟨404, [], ""⟩

def route (r : HttpRequest) : Step Work HttpAnswer :=
  if r.path = "/oauth/authorize" ∧ r.method = "GET" then a.authorize r
  else if r.path = "/oauth/decision" ∧ r.method = "POST" then a.decision r
  else if r.path = "/oauth/token" ∧ r.method = "POST" then a.token r
  else if r.path = "/metrics" ∧ r.method = "GET" then metrics
  else if r.path = "/health" ∧ r.method = "GET" then pure health
  else pure notFound

/-- Answers a request, with the world and the session after it. -/
def serve (w : World Issuer) (s : HostSession) (r : HttpRequest) :
    HttpAnswer × World Issuer × HostSession :=
  let (answer, work) := a.route r ⟨⟨.empty, .empty, w⟩, s⟩
  (match answer with
    | .ok answer => answer
    | .error f => .ofError f.report,
    work.visit.world, work.session)

end App

/-! ## The session cookie -/

/-- The session of the next request: a cookie that was sent is replaced, and an
empty session sets none. -/
def nextCookie (sent : Bool) (cookie after : HostSession) : HostSession :=
  if sent || !after.isEmpty then after else cookie

end AuthServer.Site

import AuthServer.Proofs.Endpoint.Finish
import AuthServer.Proofs.Issuing
import AuthServer.Proofs.Uniform
import AuthServer.Site.App

/-!
# Turns of the site

A turn is one request as the site meets it: the world at hand, and the session
that the host found for the request. In a row of turns each finds the world that
the last one left, and an empty session or one that some earlier turn left.
-/

namespace AuthServer

open Json

/-- What is answered does not depend on the hooks or on whether they ran. -/
theorem Response.Alike.answer_eq {σ : Type} {r r' : Response σ} (h : r.Alike r') :
    Site.HttpAnswer.ofResponse r' = .ofResponse r := by
  unfold Site.HttpAnswer.ofResponse
  rw [h.status, h.headers, h.body]

theorem Response.Alike.redirect {σ : Type} {r r' : Response σ} (h : r.Alike r') (location : String) :
    (r.redirect location).Alike (r'.redirect location) := by
  refine ⟨rfl, ?_, h.body⟩
  show setHeaderIn "Location" location r'.headers = setHeaderIn "Location" location r.headers
  rw [h.headers]

namespace Site

/-- The answer is that of the response as it was written. -/
theorem run_send {σ : Type} (v : Visit σ) :
    (send.run v).1 = .ok (.ofResponse v.response) ∧ (send.run v).2 = (Visit.finish.run v).2 := by
  refine ⟨congrArg Except.ok ?_, rfl⟩
  rcases hrun : (Visit.finish.run v) with ⟨r, v'⟩
  show HttpAnswer.ofResponse (Visit.finish.run v).2.response = _
  rw [hrun]
  cases Visit.finish_cases hrun with
  | idle => rfl
  | ran _ hhooks =>
    have hclosed : v'.response = v.closed.response :=
      (Visit.runHooks_response v.response.hooks v.closed.response).of_run hhooks rfl
    show HttpAnswer.ofResponse v'.response = _
    rw [hclosed]
    exact Response.Alike.answer_eq ⟨rfl, rfl, rfl⟩

/-- The code that is given out next. -/
def Issuer.nextCode (host : Issuer) : String := host.tokens.peek Supply.tokenLength

structure Turn where
  world : World Issuer
  session : HostSession
  request : HttpRequest

namespace Turn

/-- The request as it comes in. -/
def work (h : Turn) : Work := ⟨⟨.empty, .empty, h.world⟩, h.session⟩

/-- The code that the turn would give out. -/
def code (h : Turn) : String := h.world.host.nextCode

end Turn

namespace App

variable (a : App)

def answer (h : Turn) : HttpAnswer := (a.serve h.world h.session h.request).1

def worldAfter (h : Turn) : World Issuer := (a.serve h.world h.session h.request).2.1

def sessionAfter (h : Turn) : HostSession := (a.serve h.world h.session h.request).2.2

/-- The turns that the site was taken through, from the first world to the last. Sessions start
empty, and nobody but the site writes them; they may come back in any order, and more than once. -/
inductive Served (w₀ : World Issuer) : List Turn → World Issuer → Prop where
  | start : Served w₀ [] w₀
  | turn {hs : List Turn} {h : Turn} :
    Served w₀ hs h.world → h.session = [] ∨ (∃ h' ∈ hs, h.session = a.sessionAfter h') →
    Served w₀ (hs ++ [h]) (a.worldAfter h)

variable {a}

/-- What comes before a turn is served before it. -/
theorem Served.before {w₀ w : World Issuer} {before after hs : List Turn} {h : Turn}
    (hserved : a.Served w₀ hs w) (hsplit : hs = before ++ h :: after) :
    a.Served w₀ before h.world ∧
      (h.session = [] ∨ ∃ h' ∈ before, h.session = a.sessionAfter h') := by
  induction hserved generalizing after with
  | start => simp at hsplit
  | @turn hs' h' hprevious hsession ih =>
    rcases List.eq_nil_or_concat after with rfl | ⟨rest, last, rfl⟩
    · obtain ⟨rfl, hlast⟩ := List.append_inj' hsplit rfl
      cases hlast
      exact ⟨hprevious, hsession⟩
    · rw [List.concat_eq_append, ← List.cons_append, ← List.append_assoc] at hsplit
      exact ih (List.append_inj' hsplit rfl).1

theorem answer_eq {h : Turn} {given : HttpAnswer}
    (hrun : ((a.route h.request).run h.work).1 = .ok given) : a.answer h = given := by
  have hwork : a.route h.request ⟨⟨.empty, .empty, h.world⟩, h.session⟩ = (.ok given, _) :=
    Prod.ext hrun rfl
  unfold answer serve
  rw [hwork]

theorem route_authorize {r : HttpRequest} (hpath : r.path = "/oauth/authorize")
    (hmethod : r.method = "GET") : a.route r = a.authorize r := by
  unfold route
  rw [if_pos ⟨hpath, hmethod⟩]

theorem route_decision {r : HttpRequest} (hpath : r.path = "/oauth/decision")
    (hmethod : r.method = "POST") : a.route r = a.decision r := by
  unfold route
  rw [if_neg (by rw [hpath]; exact fun h => absurd h.1 (by decide)), if_pos ⟨hpath, hmethod⟩]

theorem route_token {r : HttpRequest} (hpath : r.path = "/oauth/token")
    (hmethod : r.method = "POST") : a.route r = a.token r := by
  unfold route
  rw [if_neg (by rw [hpath]; exact fun h => absurd h.1 (by decide)),
    if_neg (by rw [hpath]; exact fun h => absurd h.1 (by decide)), if_pos ⟨hpath, hmethod⟩]

/-! ## The endpoints in a turn -/

variable (a)

/-- The visit on which the endpoints are called. -/
def arrival (h : Turn) (request : Request) : Visit Issuer :=
  ⟨{ h.session.load a.sessionKey request with user := some owner }, .empty, h.world⟩

/-- A client was sent to the resource owner: the transaction `t` waits under `id`. -/
structure Asks (h : Turn) (request : Request) (id : String) (t : Transaction) : Prop where
  path : h.request.path = "/oauth/authorize"
  method : h.request.method = "GET"
  reads : h.request.read = .ok request
  pending : ∃ v, (a.server.authorize ⟨a.clients.validate, none, .none⟩).run (a.arrival h request) =
    (.ok (.pending id), v) ∧ v.request.transaction = some t

/-- The resource owner was asked about `t`, and did not cancel. -/
structure Allows (h : Turn) (t : Transaction) : Prop where
  path : h.request.path = "/oauth/decision"
  method : h.request.method = "POST"
  decides : ∃ request body v, h.request.read = .ok request ∧ request.body = some body ∧
    Value.truthy? (body.value? a.config.decision.cancelField) = false ∧
    a.server.loadTransaction.run (a.arrival h request) = (.ok (), v) ∧
    v.request.transaction = some t

/-- The answer is a redirect to the URI, with parameters that contain the code. -/
def Redirects (h : Turn) (uri code : String) : Prop :=
  ∃ place p, Redirect.Placing place ∧ Entries.value? p "code" = some (.str code) ∧
    a.answer h = .ofResponse ((Response.empty : Response Issuer).redirect (place uri p))

/-- The resource owner allowed a transaction that asks for a code, and one was generated. -/
def Generates (h : Turn) : Prop :=
  ∃ t, a.Allows h t ∧ t.request.type.tokens = ["code"] ∧
    (a.worldAfter h).host.tokens.used ≠ h.world.host.tokens.used

/-- A code was handed in, and answered with tokens. -/
structure Redeems (h : Turn) (request : Request) (code : String) : Prop where
  path : h.request.path = "/oauth/token"
  method : h.request.method = "POST"
  reads : h.request.read = .ok request
  grantType : request.bodyText? "grant_type" = some "authorization_code"
  code : request.bodyText? "code" = some code
  status : (a.answer h).status = 200

end App

end Site

end AuthServer

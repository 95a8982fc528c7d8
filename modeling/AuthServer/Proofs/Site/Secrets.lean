import AuthServer.Proofs.Site.Turns

/-!
# Client secrets

Two sites that differ only in the secrets of their clients cannot be told apart
by anything but authentication. A request that authenticates on both or on
neither is answered alike and leaves the same world and session; so a run of
such requests is the same on both.
-/

namespace AuthServer.Site

open Json

/-! ## What is left without the secret -/

/-- The client as everything but authentication knows it. -/
def Client.concealed (c : Client) : Client := { c with secret := "" }

theorem Client.toValue_congr {c c' : Client} (h : c.concealed = c'.concealed) : c.toValue = c'.toValue := by
  show c.concealed.toValue = c'.concealed.toValue
  rw [h]

theorem Directory.redirectUri_congr {c c' : Client} (h : c.concealed = c'.concealed) :
    redirectUri c = redirectUri c' := by
  show redirectUri c.concealed = redirectUri c'.concealed
  rw [h]

/-- The same clients under the same ids, with secrets of their own. -/
def Directory.AgreeButSecrets (d d' : Directory) : Prop :=
  ∀ id, (d.value? id).map Client.concealed = (d'.value? id).map Client.concealed

namespace Directory.AgreeButSecrets

variable {d d' : Directory} (hd : d.AgreeButSecrets d')
include hd

theorem value?_cases (id : String) :
    (d.value? id = none ∧ d'.value? id = none) ∨
      ∃ c c', d.value? id = some c ∧ d'.value? id = some c' ∧ c.concealed = c'.concealed := by
  have hid := hd id
  rcases hc : d.value? id with _ | c <;> rcases hc' : d'.value? id with _ | c' <;> rw [hc, hc'] at hid
  · exact .inl ⟨rfl, rfl⟩
  · cases hid
  · cases hid
  · exact .inr ⟨c, c', rfl, rfl, Option.some.inj hid⟩

theorem validate_eq {σ : Type} : (d.validate : Validate σ) = d'.validate := by
  refine congrArg Validate.ofClient (funext fun id => funext fun uri => ?_)
  cases id with
  | none => rfl
  | some id =>
    rw [Option.bind_some, Option.bind_some]
    rcases hd.value?_cases id with ⟨hc, hc'⟩ | ⟨c, c', hc, hc', hsame⟩ <;> rw [hc, hc']
    simp only [redirectUri_congr hsame, Client.toValue_congr hsame]

theorem readId_eq {σ : Type} : (d.readId : Value → Step σ _) = d'.readId := by
  funext stored
  unfold readId
  cases stored with
  | str id =>
    rcases hd.value?_cases id with ⟨hc, hc'⟩ | ⟨c, c', hc, hc', hsame⟩ <;> simp only [hc, hc']
    rw [Option.map_some, Option.map_some, Client.toValue_congr hsame]
  | _ => rfl

/-- Whoever authenticates on both sites is the same client to what comes next. -/
theorem toValue_authenticate {id secret : String} {c c' : Client} (hc : d.authenticate id secret = some c)
    (hc' : d'.authenticate id secret = some c') : c.toValue = c'.toValue := by
  obtain ⟨hc, -⟩ := Option.filter_eq_some_iff.1 hc
  obtain ⟨hc', -⟩ := Option.filter_eq_some_iff.1 hc'
  have hsame := hd id
  rw [hc, hc', Option.map_some, Option.map_some] at hsame
  exact Client.toValue_congr (Option.some.inj hsame)

end Directory.AgreeButSecrets

namespace App

/-! ## Sites that differ in secrets -/

/-- The sites have one set-up, and only the secrets of their clients differ. -/
structure AgreeButSecrets (a a' : App) : Prop where
  config : a'.config = a.config
  server : a'.server = a.server
  clients : a.clients.AgreeButSecrets a'.clients

theorem agreeButSecrets_ofConfig {config : Config} {d d' : Directory} {a a' : App}
    (ha : App.ofConfig config d = .ok a) (ha' : App.ofConfig config d' = .ok a')
    (hd : d.AgreeButSecrets d') : a.AgreeButSecrets a' := by
  unfold App.ofConfig at ha ha'
  rw [← hd.readId_eq] at ha'
  rcases hstore : Store.ofConfig 0 config with e | store <;> rw [hstore] at ha ha'
  · cases ha
  cases ha
  cases ha'
  exact ⟨rfl, rfl, hd⟩

/-- The client that a token request authenticates. -/
def sender? (a : App) (r : HttpRequest) : Option Client := r.read.toOption.bind a.authenticated

/-- A token request authenticates on both sites or on neither. -/
def AuthenticatesAlike (a a' : App) (r : HttpRequest) : Prop :=
  r.path = "/oauth/token" → r.method = "POST" → ((a.sender? r).isSome ↔ (a'.sender? r).isSome)

instance (a a' : App) (r : HttpRequest) : Decidable (a.AuthenticatesAlike a' r) :=
  inferInstanceAs (Decidable (_ → _ → _))

/-! ## A run -/

structure Arrival where
  request : HttpRequest
  /-- The session that the host has for the request, given all that were left before. -/
  session : List HostSession → HostSession

/-- What a request is answered, and what it leaves. -/
abbrev Trace := HttpAnswer × World Issuer × HostSession

/-- The requests in turn, each on the world that the last one left. -/
def run (a : App) (w : World Issuer) (left : List HostSession) : List Arrival → List Trace
  | [] => []
  | x :: rest =>
    let trace := a.serve w (x.session left) x.request
    trace :: a.run trace.2.1 (left ++ [trace.2.2]) rest

namespace AgreeButSecrets

variable {a a' : App} (h : a.AgreeButSecrets a')
include h

theorem finish_eq : a'.finish = a.finish := by
  unfold finish saveSession sessionKey
  rw [h.config]

theorem render_eq (renderer : ErrorRenderer Issuer) (e : OAuthError) :
    a'.render renderer e = a.render renderer e := by
  unfold render
  rw [h.finish_eq]

theorem fail_eq (e : OAuthError) : a'.fail e = a.fail e := by
  unfold fail errors
  simp only [h.config, h.server, h.finish_eq, h.render_eq]

theorem andThen_eq {α : Type} (x : Step (Visit Issuer) α) (next : α → Step Work HttpAnswer) :
    a'.andThen x next = a.andThen x next := by
  unfold andThen
  simp only [h.fail_eq]

theorem withRequest_eq (r : HttpRequest) (next : Step Work HttpAnswer) :
    a'.withRequest r next = a.withRequest r next := by
  unfold withRequest loadSession sessionKey errors
  simp only [h.config, h.render_eq]

theorem authorize_eq (r : HttpRequest) : a'.authorize r = a.authorize r := by
  unfold authorize saveSession sessionKey consentPage
  simp only [h.withRequest_eq, h.andThen_eq, h.finish_eq, h.config, h.server, h.clients.validate_eq]

theorem decision_eq (r : HttpRequest) : a'.decision r = a.decision r := by
  unfold decision
  simp only [h.withRequest_eq, h.andThen_eq, h.finish_eq, h.config, h.server]

theorem toValue_authenticated (request : Request)
    (hboth : (a.authenticated request).isSome ↔ (a'.authenticated request).isSome) :
    (a'.authenticated request).map Client.toValue = (a.authenticated request).map Client.toValue := by
  rcases hc : a.authenticated request with _ | c <;> rcases hc' : a'.authenticated request with _ | c' <;>
    rw [hc, hc'] at hboth
  · cases hboth.2 rfl
  · cases hboth.1 rfl
  · obtain ⟨id, hid, hc⟩ := Option.bind_eq_some_iff.1 hc
    obtain ⟨secret, hsecret, hc⟩ := Option.bind_eq_some_iff.1 hc
    unfold authenticated at hc'
    rw [hid, hsecret] at hc'
    exact congrArg some (h.clients.toValue_authenticate hc hc').symm

theorem token_eq {r : HttpRequest} (hr : (a.sender? r).isSome ↔ (a'.sender? r).isSome) :
    a'.token r = a.token r := by
  unfold token
  rcases hread : r.read with e | request
  · rfl
  rw [sender?, sender?, hread] at hr
  have hshown := h.toValue_authenticated request hr
  rcases hc : a.authenticated request with _ | c <;> rcases hc' : a'.authenticated request with _ | c' <;>
    rw [hc, hc'] at hshown
  · simp only [hc, hc', h.render_eq]
  · cases hshown
  · cases hshown
  · simp only [hc, hc', Option.some.inj hshown, h.server, h.finish_eq, h.render_eq]

/-- One request: the same answer, from any world and session, and the same of both after it. -/
theorem serve_eq {r : HttpRequest} (hr : a.AuthenticatesAlike a' r) (w : World Issuer) (s : HostSession) :
    a'.serve w s r = a.serve w s r := by
  have hroute : a'.route r = a.route r := by
    unfold route
    rw [h.authorize_eq, h.decision_eq]
    by_cases htoken : r.path = "/oauth/token" ∧ r.method = "POST"
    · rw [h.token_eq (hr htoken.1 htoken.2)]
    · rw [if_neg htoken, if_neg htoken]
  rw [serve, serve, hroute]

theorem run_eq {arrivals : List Arrival} (hall : ∀ x ∈ arrivals, a.AuthenticatesAlike a' x.request)
    (w : World Issuer) (left : List HostSession) : a'.run w left arrivals = a.run w left arrivals := by
  induction arrivals generalizing w left with
  | nil => rfl
  | cons x rest ih =>
    obtain ⟨hx, hrest⟩ := List.forall_mem_cons.1 hall
    rw [run, run, h.serve_eq hx, ih hrest]

end AgreeButSecrets

/-- On two sites that differ in the secrets of their clients, a run is the same: answers, sessions,
stored transactions, codes and metrics, as long as each token request authenticates on both or on
neither. -/
theorem secrets_only_authenticate {config : Config} {d d' : Directory} {a a' : App}
    (ha : App.ofConfig config d = .ok a) (ha' : App.ofConfig config d' = .ok a')
    (hd : d.AgreeButSecrets d') (w : World Issuer) (arrivals : List Arrival)
    (hall : ∀ x ∈ arrivals, a.AuthenticatesAlike a' x.request) :
    a'.run w [] arrivals = a.run w [] arrivals :=
  (agreeButSecrets_ofConfig ha ha' hd).run_eq hall w []

/-! ## A secret is replaced -/

def rotating (secret : String) : Directory :=
  .ofList [⟨"demo-client", secret, "Demo Client", ["http://localhost:3000/callback"]⟩,
    ⟨"worker", "worker-secret", "Worker", []⟩]

theorem rotating_agree (secret secret' : String) : (rotating secret).AgreeButSecrets (rotating secret') := by
  intro id
  have hvalue : ∀ secret, (rotating secret).value? id =
      if "demo-client" = id then
        some ⟨"demo-client", secret, "Demo Client", ["http://localhost:3000/callback"]⟩
      else if "worker" = id then some ⟨"worker", "worker-secret", "Worker", []⟩ else none := fun _ => rfl
  rw [hvalue, hvalue]
  by_cases hdemo : "demo-client" = id
  · rw [if_pos hdemo, if_pos hdemo]
    rfl
  · rw [if_neg hdemo, if_neg hdemo]

def rotatingSite (secret : String) : App :=
  match App.ofConfig .standard (rotating secret) with
  | .ok a => a
  | .error _ => ⟨.standard, [], .ofStore .session⟩

theorem rotatingSite_ofConfig (secret : String) :
    App.ofConfig .standard (rotating secret) = .ok (rotatingSite secret) := rfl

/-- A form that is posted with the session that was left last. -/
def posting (path form : String) : Arrival where
  request := .ofUri "POST" path "application/x-www-form-urlencoded" (Text.Utf8.bytes form)
  session := fun left => left.getLastD []

/-- The client is allowed a code, but only guesses its secret; the worker knows its own. -/
def rotation : List Arrival :=
  [⟨.ofUri "GET" "/oauth/authorize?response_type=code&client_id=demo-client&scope=read" "" [], fun _ => []⟩,
    posting "/oauth/decision" "transaction_id=0000000000000000",
    posting "/oauth/token" "client_id=demo-client&client_secret=guess",
    posting "/oauth/token" "grant_type=client_credentials&client_id=worker&client_secret=worker-secret"]

def freshWorld : World Issuer := ⟨fun _ => [], ⟨fun _ => 0, 0⟩, .zero, ⟨[], ⟨fun _ => 0, 0⟩⟩⟩

theorem rotation_authenticates :
    ∀ x ∈ rotation, (rotatingSite "old").AuthenticatesAlike (rotatingSite "new") x.request := by
  decide +kernel

theorem rotation_unnoticed :
    (rotatingSite "new").run freshWorld [] rotation = (rotatingSite "old").run freshWorld [] rotation ∧
      ((rotatingSite "old").run freshWorld [] rotation).map (·.1.status) = [200, 302, 401, 200] :=
  ⟨secrets_only_authenticate (rotatingSite_ofConfig "old") (rotatingSite_ofConfig "new")
      (rotating_agree "old" "new") freshWorld rotation rotation_authenticates,
    by decide +kernel⟩

end App

end AuthServer.Site

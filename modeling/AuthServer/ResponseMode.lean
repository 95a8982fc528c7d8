import AuthServer.Http.Response
import AuthServer.Redirect

/-!
# Response modes

How the parameters of an answer reach the client: in the query or in the
fragment of its redirect URI, or by a mode of the host.
-/

namespace AuthServer

open Json

structure ResponseMode (σ : Type) where
  /-- Whether a transaction can be answered in this mode at all. -/
  validate : Transaction → Step σ Unit
  render : Transaction → Params → Step (Reply σ) Unit

namespace ResponseMode

variable {σ : Type}

def noRedirect : OAuthError :=
  .authorization "Unable to issue redirect for OAuth 2.0 transaction" "server_error"

def redirectUri (t : Transaction) : Except OAuthError String :=
  match t.redirectUri with
  | some uri => .ok uri
  | none => .error noRedirect

/-- A redirect to the client, with `place` putting the parameters on its URI. -/
def redirecting (place : String → Params → String) : ResponseMode σ where
  validate t := do
    let _ ← Step.ofExcept (redirectUri t)
  render t p := do
    let uri ← Step.ofExcept (redirectUri t)
    Step.onResponse (·.redirect (place uri p))

def query : ResponseMode σ := redirecting Redirect.appendQuery

def fragment : ResponseMode σ := redirecting Redirect.replaceFragment

/-- A mode of the host that can answer every transaction. -/
def custom (render : Transaction → Params → Step (Reply σ) Unit) : ResponseMode σ :=
  ⟨fun _ => pure (), render⟩

end ResponseMode

abbrev ResponseModes (σ : Type) := Entries (ResponseMode σ)

namespace ResponseModes

variable {σ : Type}

def standard : ResponseModes σ := [("query", .query), ("fragment", .fragment)]

/-- The mode that was asked for, or else the one called `default`. -/
def select (modes : ResponseModes σ) (requested : Option String) (default : String) :
    Except OAuthError (ResponseMode σ) :=
  let name := requested.getD default
  match modes.value? name with
  | some mode => .ok mode
  | none => .error (.unsupportedResponseMode name)

section

variable {modes : ResponseModes σ} {requested : Option String} {default : String}

theorem select_ok {mode : ResponseMode σ} (h : modes.select requested default = .ok mode) :
    modes.value? (requested.getD default) = some mode := by
  unfold select at h
  simp only at h
  split at h
  · rename_i hvalue
    cases h
    exact hvalue
  · cases h

theorem select_error {e : OAuthError} (h : modes.select requested default = .error e) :
    modes.value? (requested.getD default) = none ∧
      e = .unsupportedResponseMode (requested.getD default) := by
  unfold select at h
  simp only at h
  split at h
  · cases h
  · rename_i hvalue
    cases h
    exact ⟨hvalue, rfl⟩

end

/-- Selects, validates and renders. -/
def respond (modes : ResponseModes σ) (t : Transaction) (p : Params) (default : String) :
    Step (Reply σ) Unit := do
  let mode ← Step.ofExcept (modes.select t.request.responseMode default)
  Step.inReply (mode.validate t)
  mode.render t p

end ResponseModes

/-- The parameters that tell a client of an error, with the state of its request. -/
def errorParams (e : OAuthError) (t : Transaction) : Params :=
  e.members ++ (t.request.state.map fun s => ("state", Value.str s)).toList

end AuthServer

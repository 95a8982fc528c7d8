import AuthServer.Endpoint.Response
import AuthServer.ResponseMode

/-!
# Errors of the authorization endpoints

`redirectError` lets the grants' error responders tell the client; without a
transaction there is no client to tell. `renderError` is the last resort: a
JSON body, or a redirect by the renderer's own modes. Both hand back an error
that they could not place.
-/

namespace AuthServer

variable {σ : Type}

namespace Server

def redirectError (s : Server σ) (e : OAuthError) : Step (Visit σ) Unit := do
  match ← Step.gets (·.request.transaction) with
  | none => .fail e
  | some t =>
    s.armRemoval
    Step.asReply (s.dispatcher.respondError e t)

end Server

structure ErrorRenderer (σ : Type) where
  options : ErrorOptions
  modes : ResponseModes σ

namespace ErrorRenderer

def ofOptions (options : ErrorOptions) : ErrorRenderer σ := ⟨options, .standard⟩

def writeDirect (e : OAuthError) (r : Response σ) : Response σ :=
  let r := r.sendJson e.status (.obj e.members)
  match e.challenge? with
  | some challenge => r.setHeader "WWW-Authenticate" challenge
  | none => r

def usesFragment (options : ErrorOptions) (type : TypeSet) : Bool :=
  !type.isEmpty && options.fragment.any fun f => (TypeSet.parse f).equalTo type

/-- The mode that the request asks for, or the standard one for its type. -/
def mode? (renderer : ErrorRenderer σ) (request : AuthorizationRequest) : Option (ResponseMode σ) :=
  match request.responseMode with
  | some name => renderer.modes.value? name
  | none => some (if usesFragment renderer.options request.type then .fragment else .query)

def renderIndirect (renderer : ErrorRenderer σ) (e : OAuthError) (t : Transaction) :
    Step (Reply σ) Unit :=
  if t.redirectUri.isNone then .fail e
  else
    match renderer.mode? t.request with
    | some mode => mode.render t (errorParams e t)
    | none => .fail e

def render (renderer : ErrorRenderer σ) (e : OAuthError) : Step (Visit σ) Unit := do
  match renderer.options.mode with
  | .direct => Step.asReply (Step.onResponse (writeDirect e))
  | .indirect =>
    match ← Step.gets (·.request.transaction) with
    | none => .fail e
    | some t => Step.asReply (renderer.renderIndirect e t)

end ErrorRenderer

end AuthServer

import AuthServer.Grant.Param
import AuthServer.ResponseMode
import AuthServer.Server

/-!
# Grants that answer by redirect

What the code grant and the implicit grant share: reading the authorization
request, the shape of an answer, and error responders that redirect.
-/

namespace AuthServer.Grant

open Json

variable {σ : Type}

structure Options (σ : Type) where
  separators : List String
  modes : ResponseModes σ

def Options.standard : Options σ := ⟨standardSeparators, .standard⟩

/-- What an issuing callback may look at. -/
structure IssueContext where
  client : Option Value
  redirectUri : Option String
  user : Option Value
  decision : Decision
  request : AuthorizationRequest
  locals : Option Params

def notDecided : OAuthError := .server "OAuth 2.0 transaction has not been decided"

def IssueContext.ofTransaction (t : Transaction) : Except OAuthError IssueContext :=
  match t.decision with
  | some d => .ok ⟨t.client, t.redirectUri, t.user, d, t.request, t.locals⟩
  | none => .error notDecided

/-! ## Reading the request -/

def field {α : Type} (name : String) (write : α → Value) : Option α → Params
  | none => []
  | some a => [(name, write a)]

/-- The fields that a redirecting grant reads. -/
def readFields (separators : List String) (req : Request) : Except OAuthError Params := do
  let e := EndpointKind.authorization
  let clientId ← e.required "client_id" (req.param? "client_id")
  let redirectUri ← e.optional "redirect_uri" (req.param? "redirect_uri")
  let scope ← e.scope separators (req.param? "scope")
  let state ← e.optional "state" (req.param? "state")
  let mode ← e.optional "response_mode" (req.param? "response_mode")
  return ("client_id", .str clientId) :: field "redirect_uri" .str redirectUri ++
    field "scope" .ofStrings scope ++ field "state" .str state ++ field "response_mode" .str mode

def parser (separators : List String) : RequestParser σ := fun req => .ofExcept (readFields separators req)

/-! ## Answering -/

def deniedParams (t : Transaction) : Params :=
  ("error", .str "access_denied") :: field "state" .str t.request.state

def withState (p : Params) (t : Transaction) : Params :=
  match t.request.state with
  | some s => p.put "state" (.str s)
  | none => p

def refused : OAuthError := .accessDenied "Request denied by authorization server"

/-- The answer of a redirecting grant. The mode is checked before anything is
issued; the completion callback runs between issuing and rendering. -/
def responder {α : Type} (modes : ResponseModes σ) (defaultMode : String)
    (issue : IssueContext → Step σ (Option α)) (params : α → Params) : Responder σ :=
  fun t complete => do
    let mode ← Step.ofExcept (modes.select t.request.responseMode defaultMode)
    Step.inReply (mode.validate t)
    let context ← Step.ofExcept (IssueContext.ofTransaction t)
    if !context.decision.allow then
      mode.render t (deniedParams t)
      pure .done
    else
      match ← Step.inReply (issue context) with
      | none => .fail refused
      | some issued =>
        Step.inReply (complete.run t)
        mode.render t (withState (params issued) t)
        pure .done

/-- Redirects an error where the transaction allows it and leaves it alone otherwise. -/
def redirectErrors (modes : ResponseModes σ) (defaultMode : String) : ErrorResponder σ := fun e t => do
  if t.redirectUri.isNone then pure .next
  else
    match modes.select t.request.responseMode defaultMode with
    | .error _ => pure .next
    | .ok mode =>
      match ← (Step.inReply (mode.validate t)).attempt with
      | .error .crash => Step.crash
      | .error (.error _) => pure .next
      | .ok _ =>
        mode.render t (errorParams e t)
        pure .done

/-- A redirecting grant for a response type. -/
def redirecting {α : Type} (name defaultMode : String) (o : Options σ)
    (issue : IssueContext → Step σ (Option α)) (params : α → Params) : Grant σ where
  name := name
  request := some (parser o.separators)
  response := some (responder o.modes defaultMode issue params)
  error := some (redirectErrors o.modes defaultMode)

end AuthServer.Grant
